import ArRobotCode.Scratch.CourseRuns

namespace ArRobotCode.Scratch

open Structured Trapping Vm Course

section Runs

variable [JavaScript] [Opcodes]

section Flags

omit [JavaScript] in
def flagged (scripts : List (BlockId × Nat)) : List (BlockId × Nat) :=
  scripts.filter fun script => Opcodes.opcode script.1 = .eventWhenflagclicked

/-- The scripts that the flag starts, in the order in which it starts them. -/
def Project.hats (project : Project) : List (BlockId × Nat) := flagged project.allScripts

def started (serial : Nat) : List (BlockId × Nat) → List Thread
  | [] => []
  | (top, target) :: scripts => .create serial top target false false :: started (serial + 1) scripts

end Flags

section Ends

variable {c : Course} {m : Nat} {bound : Nat → Nat} {vm : Vm}

/-- The scripts that the flag starts are spelled by the blocks, with at most `m` steps each. -/
def Project.Spelled (project : Project) (programs : Nat → Program) (m : Nat) : Prop :=
  ∀ i script, project.hats[i]? = some script → (programs i).Laid (project.blocks script.2) (some script.1) ∧
    (programs i).Steady ∧ (programs i).steps ≤ m

variable {project : Project} {programs : Nat → Program}

end Ends

/-- A project of structured programs says nothing but beginnings of what its programs mean, run by run, whatever the
    interleaving of its scripts, the answers of the world and the faults. -/
theorem orders_begin_meaning (project : Project) (world : Nat → Answer) (events : List Event)
    (unmonitored : project.monitored = [])
    (spelled : ∀ script ∈ project.hats, ∃ p, Program.Laid (project.blocks script.2) (some script.1) p)
    (permitted : ∀ event ∈ events, Permitted project event) :
    let vm := (Vm.create project world).after events
    vm.posted.filter (· ≠ "00 run") = vm.executions.map (·.message) ∧
      ∀ x ∈ vm.executions, ∃ (t : Thread) (p : Program) (word : List String), x.threads[x.index]? = some t ∧
        p.Laid (project.blocks t.target) (some t.topBlock) ∧ word ∈ p.meaning ∧ vm.orders t.serial <+: word := by
  have scripts : ∀ script ∈ project.allScripts, Opcodes.opcode script.1 = .eventWhenflagclicked →
      ∃ p, Program.Laid (project.blocks script.2) (some script.1) p := by
    intro script member flag
    exact spelled script (List.mem_filter.mpr ⟨member, by simpa using flag⟩)
  obtain ⟨run, follows⟩ := orderly_after unmonitored scripts permitted (orderly_create project world)
  refine ⟨follows.told, fun x member => ?_⟩
  obtain ⟨t, executing, _, laid⟩ := follows.recorded x member
  obtain ⟨word, inside, begins⟩ := follows.spoken t.serial
  exact ⟨t, run t.serial, word, executing, laid, inside, begins⟩

end Runs

namespace Stage

local instance : JavaScript := .texts

def flag : BlockId := ⟨"begin", by decide, List.all_iff_forall_prop.mp (by decide +kernel)⟩
def again : BlockId := ⟨"again", by decide, List.all_iff_forall_prop.mp (by decide +kernel)⟩
def choice : BlockId := ⟨"choice", by decide, List.all_iff_forall_prop.mp (by decide +kernel)⟩
def walk : BlockId := ⟨"ahead", by decide, List.all_iff_forall_prop.mp (by decide +kernel)⟩
def spin : BlockId := ⟨"rotate", by decide, List.all_iff_forall_prop.mp (by decide +kernel)⟩
def other : BlockId := ⟨"other", by decide, List.all_iff_forall_prop.mp (by decide +kernel)⟩
def until' : BlockId := ⟨"until", by decide, List.all_iff_forall_prop.mp (by decide +kernel)⟩
def pause : BlockId := ⟨"pause", by decide, List.all_iff_forall_prop.mp (by decide +kernel)⟩
def back : BlockId := ⟨"back", by decide, List.all_iff_forall_prop.mp (by decide +kernel)⟩

local instance : Opcodes where
  opcode id :=
    if id = flag ∨ id = other then .eventWhenflagclicked
    else if id = again then .controlRepeat
    else if id = choice then .controlIfElse
    else if id = until' then .controlRepeatUntil
    else if id = pause then .controlWait
    else if id = walk then .robot .moveSteps
    else if id = spin then .robot .turnRight
    else if id = back then .robot .moveStepsBack
    else .other

def walkBlock : Block := { inputs := [("STEPS", .value (.text "10"))] }
def spinBlock : Block := { inputs := [("DEGREES", .value (.text "90"))] }

def stage (second : BlockId) : Project where
  executableTargets := [0]
  blocks _ :=
    { scripts := [flag, other]
      blocks := [(flag, { next := some again }),
        (again, { inputs := [("TIMES", .value (.text "3"))], substack := some choice }),
        (choice, { inputs := [("CONDITION", .reporter)], substack := some walk, substack2 := some spin }),
        (walk, walkBlock), (spin, spinBlock), (other, { next := some second }),
        (until', { inputs := [("CONDITION", .reporter)], substack := some pause }), (pause, { next := some back }),
        (back, walkBlock)] }

def chosen : Program :=
  .choose choice (.emit walk {RobotBlock.moveSteps.order "10"} .done)
    (.emit spin {RobotBlock.turnRight.order "90"} .done) .done

def first : Program := .pass flag (.loop again (some 3) chosen .done)

theorem first_laid (second : BlockId) : first.Laid ((stage second).blocks 0) (some flag) := by
  refine ⟨rfl, _, rfl, .inl (by decide +kernel), rfl, _, rfl, by decide +kernel, ?_, rfl⟩
  refine ⟨rfl, _, rfl, ?_, .inr ⟨by decide +kernel, ?_⟩, rfl⟩
  · exact ⟨rfl, walkBlock, _, rfl, by decide +kernel, Block.orders_eq rfl rfl, Set.singleton_nonempty _, rfl⟩
  · exact ⟨rfl, spinBlock, _, rfl, by decide +kernel, Block.orders_eq rfl rfl, Set.singleton_nonempty _, rfl⟩

def second : Program := .pass other (.loop until' none
  (.pass pause (.emit back {RobotBlock.moveStepsBack.order "10"} .done)) .done)

theorem second_laid : second.Laid ((stage until').blocks 0) (some other) := by
  refine ⟨rfl, _, rfl, .inl (by decide +kernel), rfl, _, rfl, by decide +kernel, ?_, rfl⟩
  refine ⟨rfl, _, rfl, .inr (.inr (.inr (.inl (by decide +kernel)))), ?_⟩
  exact ⟨rfl, walkBlock, _, rfl, by decide +kernel, Block.orders_eq rfl rfl, Set.singleton_nonempty _, rfl⟩

theorem hats_eq (second : BlockId) : (stage second).hats = [(flag, 0), (other, 0)] := by
  have flags : Opcodes.opcode flag = .eventWhenflagclicked ∧ Opcodes.opcode other = .eventWhenflagclicked := by
    decide +kernel
  simp [Project.hats, flagged, Project.allScripts, stage, flags]

def clicks : List Event :=
  [.greenFlag, .tick 5 2, .toggleScript flag 0 false, .promiseResolved 1, .toggleScript flag 0 true,
    .tick 0 1, .stopAll]

theorem orders_begin_meaning_clicks :
    let vm := (Vm.create (stage until') fun _ => {}).after clicks
    vm.posted.filter (· ≠ "00 run") = vm.executions.map (·.message) ∧
      ∀ x ∈ vm.executions, ∃ (t : Thread) (p : Program) (word : List String), x.threads[x.index]? = some t ∧
        p.Laid ((stage until').blocks t.target) (some t.topBlock) ∧ word ∈ p.meaning ∧
        vm.orders t.serial <+: word := by
  apply orders_begin_meaning (stage until') (fun _ => {}) clicks
  · rfl
  · rw [hats_eq]
    simp only [List.forall_mem_cons]
    exact ⟨⟨first, first_laid until'⟩, ⟨second, second_laid⟩, nofun⟩
  · simp only [clicks, List.forall_mem_cons]
    have clicked : ∃ p, Program.Laid ((stage until').blocks 0) (some flag) p := ⟨first, first_laid until'⟩
    exact ⟨trivial, trivial, clicked, trivial, clicked, trivial, trivial, nofun⟩

def third : Program := .pass other (.emit spin {RobotBlock.turnRight.order "90"} .done)

theorem third_laid : third.Laid ((stage spin).blocks 0) (some other) := by
  refine ⟨rfl, _, rfl, .inl (by decide +kernel), ?_⟩
  exact ⟨rfl, spinBlock, _, rfl, by decide +kernel, Block.orders_eq rfl rfl, Set.singleton_nonempty _, rfl⟩

def programs (i : Nat) : Program := if i = 0 then first else third

theorem spelled : (stage spin).Spelled programs 14 := by
  intro i script listed
  rw [hats_eq] at listed
  match i with
  | 0 =>
    cases listed
    refine ⟨first_laid spin, ?_, by decide⟩
    refine ⟨by decide +kernel, by decide +kernel, by decide +kernel, rfl, ?_, trivial⟩
    exact ⟨⟨Set.subsingleton_singleton, trivial⟩, ⟨Set.subsingleton_singleton, trivial⟩, trivial⟩
  | 1 =>
    cases listed
    refine ⟨third_laid, ?_, by decide⟩
    exact ⟨by decide +kernel, by decide +kernel, by decide +kernel, Set.subsingleton_singleton, trivial⟩
  | _ + 2 => cases listed

end Stage

end ArRobotCode.Scratch
