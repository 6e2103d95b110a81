import ArRobotCode.Scratch.EditorPieces

namespace ArRobotCode.Scratch

open Trapping Workspace ParentForest

section Events

variable [Host]

/-- What the editor keeps to when it fires an event: it creates blocks under new ids, or a shadow again with its own,
    writes mutations without children, and deletes blocks that are on their own. -/
inductive Event.Fits (w : Workspace) : Event → Prop
  | create (tree : EditorTree .stack) (x y : String) (wellFormed : tree.WellFormed) (distinct : tree.ids.Nodup)
      (fresh : (∀ id ∈ tree.ids, w.blocks id = none) ∨ ∀ id ∈ tree.ids, (w.blocks id).isSome) :
      Fits w (.create (tree.toDomWithXY x y))
  | field (blockId name value : String) (variableName : Option String) :
      Fits w (.change blockId (.field name value variableName))
  | mutation (blockId : String) (attribs : List (String × String)) :
      Fits w (.change blockId (.mutation (some (.tag "mutation" attribs []))))
  | move {e : Move} (fits : w.Fits e) : Fits w (.move e)
  | delete (blockId : String) (alone : w.parents blockId = none) : Fits w (.delete blockId)

def Fitting : List Event → Workspace → Prop
  | [], _ => True
  | event :: events, w => event.Fits w ∧
    ∀ w', (∃ N, ∀ fuel ≥ N, (blocklyListen fuel event).run w = .ok () w') → Fitting events w'

namespace Workspace

variable {w : Workspace} {holder : String → Option String}

theorem Coherent.change (coherent : w.Coherent holder) (id : String) (change : Change)
    (fits : Event.Fits w (.change id change)) :
    ∃ w', (changeBlock id change).run w = .ok () w' ∧ w'.Coherent holder := by
  unfold changeBlock
  cases found : w.blocks id with
  | none => exact ⟨w, by simp [found], coherent⟩
  | some e =>
    cases fits with
    | field _ name value variableName =>
      refine ⟨w.update id (.setField name value variableName), ?_,
        coherent.update_plain (Entry.plain_setField name value variableName)⟩
      simp [found, modify]
    | mutation _ attribs =>
      have read : ∃ mutation, Adapter.mutatorTagToObject (.tag "mutation" attribs []) = .ok mutation := by
        simp [Adapter.mutatorTagToObject, Adapter.mutatorTagsToObjects, pure, Except.pure, bind, Except.bind]
      obtain ⟨mutation, read⟩ := read
      refine ⟨w.update id (.setMutation mutation), ?_, coherent.update_plain (Entry.plain_setMutation mutation)⟩
      simp [found, read, modify]

theorem run_create (tree : EditorTree .stack) (wellFormed : tree.WellFormed) (distinct : tree.ids.Nodup) (x y : String)
    (fuel : Nat) : (blocklyListen fuel (.create (tree.toDomWithXY x y))).run w =
      .ok () (w.createBlocks (tree.topEntries x y)) := by
  have read := tree.run_domToBlocks wellFormed distinct x y w.drawn
  have keys : ((tree.topEntries x y).map (·.1)).Nodup := by rwa [tree.topEntries_ids]
  have single :
      ∀ id ∈ ((tree.topEntries x y).filter (·.2.topLevel)).map (·.1), id = (tree.head?.map (·.id)).getD "" := by
    rw [tree.topEntries_tops, ← tree.head?_roots]
    cases tree.head? <;> simp
  have same := createBlocks_perm (w := w) (enumerate_perm (tree.topEntries x y)).symm keys single
  simp [blocklyListen, read, same]

theorem run_move_missing {e : Move} (missing : w.blocks e.id = none) (fuel : Nat) :
    (blocklyListen fuel (.move e)).run w = .ok () w := by
  simp [blocklyListen, moveBlock, missing]

theorem run_delete_missing {id : String} (missing : w.blocks id = none) (fuel : Nat) :
    (blocklyListen fuel (.delete id)).run w = .ok () w := by
  simp [blocklyListen, missing]

theorem run_delete_shadow {id : String} (shadow : w.IsShadow id) (fuel : Nat) :
    (blocklyListen fuel (.delete id)).run w = .ok () w := by
  obtain ⟨e, found, shadow⟩ := shadow
  simp [blocklyListen, found, shadow]

theorem run_delete_block {id : String} (present : (w.blocks id).isSome) (block : ¬ w.IsShadow id) (fuel : Nat) :
    (blocklyListen fuel (.delete id)).run w = (deleteBlock fuel id).run w := by
  obtain ⟨e, found⟩ := Option.isSome_iff_exists.mp present
  have plain : e.shadow = false := by
    cases shadow : e.shadow with
    | false => rfl
    | true => exact absurd ⟨e, found, shadow⟩ block
  simp [blocklyListen, found, plain]

theorem Coherent.listen (coherent : w.Coherent holder) {event : Event} (fits : event.Fits w) :
    ∃ w' holder', w'.Coherent holder' ∧ ∃ N, ∀ fuel ≥ N, (blocklyListen fuel event).run w = .ok () w' := by
  cases fits with
  | create tree x y wellFormed distinct fresh =>
    rcases fresh with fresh | present
    · have piece := tree.piece_topEntries wellFormed distinct x y
      exact ⟨_, _, coherent.create piece (by rwa [tree.topEntries_ids]), 0,
        fun fuel _ => run_create tree wellFormed distinct x y fuel⟩
    · refine ⟨w, holder, coherent, 0, fun fuel _ => (run_create tree wellFormed distinct x y fuel).trans ?_⟩
      rw [createBlocks_present (by rwa [tree.topEntries_ids])]
  | field id name value variableName =>
    obtain ⟨w', ran, kept⟩ := coherent.change id _ (.field id name value variableName)
    exact ⟨w', holder, kept, 0, fun _ _ => ran⟩
  | mutation id attribs =>
    obtain ⟨w', ran, kept⟩ := coherent.change id _ (.mutation id attribs)
    exact ⟨w', holder, kept, 0, fun _ _ => ran⟩
  | @move e fits =>
    cases found : w.blocks e.id with
    | none => exact ⟨w, holder, coherent, 0, fun fuel _ => run_move_missing found fuel⟩
    | some block =>
      obtain ⟨w', holder', ran, kept, _⟩ := coherent.moveBlock fits (by simp [found])
      exact ⟨w', holder', kept, 0, fun _ _ => ran⟩
  | delete id alone =>
    cases found : w.blocks id with
    | none => exact ⟨w, holder, coherent, 0, fun fuel _ => run_delete_missing found fuel⟩
    | some e =>
      by_cases shadow : w.IsShadow id
      · exact ⟨w, holder, coherent, 0, fun fuel _ => run_delete_shadow shadow fuel⟩
      · have present : (w.blocks id).isSome := by simp [found]
        obtain ⟨w', holder', kept, _, N, enough⟩ := coherent.deleteBlock present shadow alone
        exact ⟨w', holder', kept, N, fun fuel most => (run_delete_block present shadow fuel).trans (enough fuel most)⟩

end Workspace

theorem Fitting.cons {w w' : Workspace} {event : Event} {events : List Event} (fits : event.Fits w)
    (ran : ∃ N, ∀ fuel ≥ N, (blocklyListen fuel event).run w = .ok () w') (later : Fitting events w') :
    Fitting (event :: events) w := by
  refine ⟨fits, fun other ran' => ?_⟩
  obtain ⟨N, one⟩ := ran
  obtain ⟨N', two⟩ := ran'
  have same := (one (max N N') (le_max_left _ _)).symm.trans (two (max N N') (le_max_right _ _))
  cases same
  exact later

end Events

namespace Workspace

theorem coherent_empty : ({} : Workspace).Coherent fun _ => none := by
  refine ⟨⟨?_, ?_, ?_, ?_, ?_, ?_, ?_⟩, ?_, ?_, ?_, ?_⟩
  case refine_6 => exact ⟨fun x => ⟨x, fun y named => by cases named⟩⟩
  all_goals simp [childrenOf, Placed, parents, IsRoot]

section Results

variable {w : Workspace} {holder : String → Option String}

local instance editorHost : Host := ⟨id, toString⟩

def loneStep (id number : String) : EditorTree .stack :=
  .block { id, type := "motion_movesteps" }
    (.input "STEPS" false
      (.block { id := number, type := "math_number", isShadow := true, fields := [{ name := "NUM", value := "1" }] }
        .noInputs .nothing)
      .nothing .noInputs)
    .nothing

theorem loneStep_wellFormed {id number : String} (given : id ≠ "") (given' : number ≠ "") :
    (loneStep id number).WellFormed := by
  simp [loneStep, EditorTree.WellFormed, EditorTree.inputNames, EditorTree.head?, given, given']

theorem loneStep_distinct {id number : String} (differ : id ≠ number) : (loneStep id number).ids.Nodup := by
  simp [loneStep, EditorTree.ids, EditorTree.head?, EditorTree.startsWithShadow, differ]

theorem loneStep_fits {id number : String} (given : id ≠ "") (given' : number ≠ "")
    (differ : id ≠ number) (fresh : w.blocks id = none) (fresh' : w.blocks number = none) (x y : String) :
    Event.Fits w (.create ((loneStep id number).toDomWithXY x y)) := by
  apply Event.Fits.create _ x y (loneStep_wellFormed given given') (loneStep_distinct differ)
  left
  simp [loneStep, EditorTree.ids, EditorTree.head?, EditorTree.startsWithShadow, fresh, fresh']

def twoSteps : Workspace :=
  ({} : Workspace).createBlocks ((loneStep "a" "m").topEntries "0" "0")
    |>.createBlocks ((loneStep "b" "n").topEntries "0" "50")

theorem twoSteps_coherent : ∃ holder, twoSteps.Coherent holder := by
  have one := (loneStep "a" "m").piece_topEntries (loneStep_wellFormed (by decide) (by decide))
    (loneStep_distinct (by decide)) "0" "0"
  have two := (loneStep "b" "n").piece_topEntries (loneStep_wellFormed (by decide) (by decide))
    (loneStep_distinct (by decide)) "0" "50"
  exact ⟨_, (coherent_empty.create one (by decide)).create two (by decide)⟩

theorem twoSteps_inside {id : String} (inside : twoSteps.Inside "b" id) : id = "b" ∨ id = "n" := by
  have top : twoSteps.childrenOf "b" = ["n"] := by decide
  have bottom : twoSteps.childrenOf "n" = [] := by decide
  induction inside with
  | refl => exact .inl rfl
  | tail _ child ih =>
    rcases ih with rfl | rfl
    · rw [top] at child
      exact .inr (List.mem_singleton.mp child)
    · rw [bottom] at child
      cases child

theorem twoSteps_block {id : String} (member : id = "a" ∨ id = "b") : ¬ twoSteps.IsShadow id := by
  intro shadow
  obtain ⟨e, found, shadow⟩ := shadow
  rcases member with rfl | rfl <;> cases found <;> cases shadow

theorem joining_fits : twoSteps.Fits { id := "b", newParent := some "a" } := by
  apply Fits.block
  · decide
  · exact twoSteps_block (.inr rfl)
  · intro _
    decide
  · intro p named
    cases named
  · intro q named
    cases named
    refine ⟨⟨_, rfl, rfl⟩, fun inside => ?_⟩
    rcases twoSteps_inside inside with same | same <;> revert same <;> decide

def session : List Event :=
  [.create ((loneStep "a" "m").toDomWithXY "0" "0"), .create ((loneStep "b" "n").toDomWithXY "0" "50"),
    .move { id := "b", newParent := some "a" }, .delete "a"]

theorem session_fitting : Fitting session {} := by
  have first : (loneStep "a" "m").WellFormed := loneStep_wellFormed (by decide) (by decide)
  have second : (loneStep "b" "n").WellFormed := loneStep_wellFormed (by decide) (by decide)
  apply Fitting.cons (loneStep_fits (by decide) (by decide) (by decide) rfl rfl _ _)
    ⟨0, fun fuel _ => run_create _ first (loneStep_distinct (by decide)) _ _ fuel⟩
  apply Fitting.cons (loneStep_fits (by decide) (by decide) (by decide) rfl rfl _ _)
    ⟨0, fun fuel _ => run_create _ second (loneStep_distinct (by decide)) _ _ fuel⟩
  apply Fitting.cons (.move joining_fits) ⟨0, fun fuel _ => rfl⟩
  exact ⟨.delete _ rfl, fun _ _ => trivial⟩

/-- The editor's events never fail, and leave the blocks of the VM coherent. -/
theorem Coherent.listen_all [Host] (coherent : w.Coherent holder) (events : List Event) (fitting : Fitting events w) :
    ∃ w' holder', w'.Coherent holder' ∧ ∃ N, ∀ fuel ≥ N, (runAll (blocklyListen fuel) events).run w = .ok () w' := by
  induction events generalizing w holder with
  | nil => exact ⟨w, holder, coherent, 0, fun _ _ => rfl⟩
  | cons event rest ih =>
    obtain ⟨fits, later⟩ := fitting
    obtain ⟨w₁, holder₁, kept, N, ran⟩ := coherent.listen fits
    obtain ⟨w₂, holder₂, kept', N', ran'⟩ := ih kept (later w₁ ⟨N, ran⟩)
    refine ⟨w₂, holder₂, kept', max N N', fun fuel most => ?_⟩
    exact runAll_cons_ok.mpr ⟨w₁, ran fuel (le_of_max_le_left most), ran' fuel (le_of_max_le_right most)⟩

theorem listen_all_session : ∃ w holder, w.Coherent holder ∧
    ∃ N, ∀ fuel ≥ N, (runAll (blocklyListen fuel) session).run {} = .ok () w :=
  coherent_empty.listen_all session session_fitting

/-- A new tree of blocks stands beside the old blocks as the editor has it, and starts one more script. -/
theorem Coherent.listen_create [Host] (coherent : w.Coherent holder) (tree : EditorTree .stack)
    (wellFormed : tree.WellFormed) (distinct : tree.ids.Nodup) (fresh : ∀ id ∈ tree.ids, w.blocks id = none)
    (x y : String) :
    ∃ w' holder', w'.Coherent holder' ∧
      (∀ fuel, (blocklyListen fuel (.create (tree.toDomWithXY x y))).run w = .ok () w') ∧
      (∀ id, w'.blocks id = ((tree.topEntries x y).lookup id).or (w.blocks id)) ∧
      w'.scripts = w.scripts ++ tree.roots := by
  have piece := tree.piece_topEntries wellFormed distinct x y
  have fresh' : ∀ id ∈ (tree.topEntries x y).map (·.1), w.blocks id = none := by rwa [tree.topEntries_ids]
  obtain ⟨blocks, scripts⟩ := createBlocks_fresh piece.distinct fresh' fun id member =>
    ((coherent.scripts id).mp member).1
  refine ⟨_, _, coherent.create piece fresh', run_create tree wellFormed distinct x y, blocks, ?_⟩
  rw [scripts, tree.topEntries_tops]

theorem listen_create_third : ∃ w holder, w.Coherent holder ∧
    (∀ fuel, (blocklyListen fuel (.create ((loneStep "c" "k").toDomWithXY "0" "100"))).run twoSteps = .ok () w) ∧
    (∀ id, w.blocks id = (((loneStep "c" "k").topEntries "0" "100").lookup id).or (twoSteps.blocks id)) ∧
    w.scripts = twoSteps.scripts ++ ["c"] := by
  obtain ⟨holder, coherent⟩ := twoSteps_coherent
  apply coherent.listen_create (loneStep "c" "k") (loneStep_wellFormed (by decide) (by decide))
    (loneStep_distinct (by decide))
  simp only [loneStep, EditorTree.ids, EditorTree.head?, EditorTree.startsWithShadow]
  decide

/-- A moved block is where the editor wants it, and every other block where it was. -/
theorem Coherent.listen_move [Host] (coherent : w.Coherent holder) {e : Move} (present : (w.blocks e.id).isSome)
    (fits : w.Fits e) : ∃ w' holder', w'.Coherent holder' ∧
      (∀ fuel, (blocklyListen fuel (.move e)).run w = .ok () w') ∧ Moved e w w' := by
  obtain ⟨w', holder', ran, kept, moved⟩ := coherent.moveBlock fits present
  exact ⟨w', holder', kept, fun _ => ran, moved⟩

theorem listen_move_joined : ∃ w holder, w.Coherent holder ∧
    (∀ fuel, (blocklyListen fuel (.move { id := "b", newParent := some "a" })).run twoSteps = .ok () w) ∧
    Moved { id := "b", newParent := some "a" } twoSteps w := by
  obtain ⟨holder, coherent⟩ := twoSteps_coherent
  exact coherent.listen_move (by decide) joining_fits

/-- A deleted block goes with everything inside it, the obscured shadows too, and nothing else goes. -/
theorem Coherent.listen_delete [Host] (coherent : w.Coherent holder) {id : String} (present : (w.blocks id).isSome)
    (block : ¬ w.IsShadow id) (alone : w.parents id = none) : ∃ w' holder', w'.Coherent holder' ∧
      (∃ N, ∀ fuel ≥ N, (blocklyListen fuel (.delete id)).run w = .ok () w') ∧ Removed (w.Inside id) w w' := by
  obtain ⟨w', holder', kept, removed, N, enough⟩ := coherent.deleteBlock present block alone
  exact ⟨w', holder', kept, ⟨N, fun fuel most => (run_delete_block present block fuel).trans (enough fuel most)⟩,
    removed⟩

theorem listen_delete_first : ∃ w holder, w.Coherent holder ∧
    (∃ N, ∀ fuel ≥ N, (blocklyListen fuel (.delete "a")).run twoSteps = .ok () w) ∧
    Removed (twoSteps.Inside "a") twoSteps w := by
  obtain ⟨holder, coherent⟩ := twoSteps_coherent
  exact coherent.listen_delete (by decide) (twoSteps_block (.inl rfl)) rfl

/-- The way up from a block ends at a script, the only one that the block belongs to. -/
theorem Coherent.getTopLevelScript {x : String} (coherent : w.Coherent holder) (present : (w.blocks x).isSome) :
    ∃ N, ∃ r ∈ w.scripts, (∀ fuel ≥ N, w.getTopLevelScript fuel x = .ok (some r)) ∧
      ∀ s ∈ w.scripts, Below w.parents s x ↔ s = r := by
  obtain ⟨N, r, below, root, enough⟩ := coherent.run_topOf present
  refine ⟨N, r, (coherent.scripts r).mpr root, fun fuel most => ?_, fun s listed => ?_⟩
  · have there : w.blocks x ≠ none := Option.isSome_iff_ne_none.mp present
    simp [Workspace.getTopLevelScript, there, enough fuel most]
  · have other := ((coherent.scripts s).mp listed).2
    exact ⟨fun above => root_unique other root.2 above below, fun same => same ▸ below⟩

theorem getTopLevelScript_number : ∃ N, ∃ r ∈ twoSteps.scripts,
    (∀ fuel ≥ N, twoSteps.getTopLevelScript fuel "m" = .ok (some r)) ∧
    ∀ s ∈ twoSteps.scripts, Below twoSteps.parents s "m" ↔ s = r := by
  obtain ⟨holder, coherent⟩ := twoSteps_coherent
  exact coherent.getTopLevelScript (by decide)

end Results

end Workspace

end ArRobotCode.Scratch
