import Mathlib.Tactic.ByContra
import ArRobotCode.Library.Triples
import ArRobotCode.Levels.Editing

namespace ArRobotCode

open Swift DocumentStore Trapping LevelViewModel

inductive EditorAction where
  | edit (edit : Edit)
  | add (a : DataLevel)
  | deleteByName (name : String)
  | deleteAt (at' : Int)

def EditorAction.perform [CanonicalForm] : EditorAction → Method LevelViewModel Unit
  | edit e => e.perform
  | add a => do let _ ← onRepository (LevelsRepository.add a)
  | deleteByName name => do let _ ← onRepository (LevelsRepository.deleteByName name)
  | deleteAt at' => do let _ ← onRepository (LevelsRepository.deleteAt at')

structure LevelsRepository.OnlyChanges (u : String) (r r' : LevelsRepository) : Prop where
  length : r'.entities.length = r.entities.length
  others : ∀ (i : Nat) (l : DataLevel), r.entities[i]? = some l → l.uuid ≠ u → r'.entities[i]? = some l
  own : ∀ (i : Nat) (l : DataLevel), r.entities[i]? = some l → l.uuid = u →
    ∃ l', r'.entities[i]? = some l' ∧ l'.uuid = u
  server : ∃ writes, r'.db = r.db ++ writes ∧
    ∀ (c : Collection Json) (id : String), id ≠ u → c.after writes id = c id
  gone : (∀ l ∈ r.entities, l.uuid ≠ u) → r'.entities = r.entities ∧ r'.db = r.db

theorem LevelsRepository.OnlyChanges.of_same {u : String} {r r' : LevelsRepository}
    (entities : r'.entities = r.entities) (db : r'.db = r.db) : r.OnlyChanges u r' where
  length := by rw [entities]
  others i l found _ := by rw [entities]; exact found
  own i l found same := ⟨l, by rw [entities]; exact found, same⟩
  server := ⟨[], by rw [db, List.append_nil], fun _ _ _ => rfl⟩
  gone _ := ⟨entities, db⟩

theorem DataLevel.asDictionary_uuid (l : DataLevel) : l.asDictionary "UUID" = some (.string l.uuid) := rfl

namespace Edit

def Keeps [CanonicalForm] (u : String) (v : LevelViewModel) (e : Edit) : Prop :=
  ∃ v', e.perform.run v = .ok () v' ∧ v.levelsRepository.OnlyChanges u v'.levelsRepository

/-- The edit returns at once, or it fits the level at the editor's position, which is still `u` or is not there. -/
def OnTarget [CanonicalForm] (u : String) (v : LevelViewModel) (e : Edit) : Prop :=
  match at? v.levelsRepository.entities v.levelAt with
  | some l => e.Skipped l ∨ (l.uuid = u ∧ e.Fits l)
  | none => e.Skipped v.levelsRepository.madeUp ∨ e.Fits v.levelsRepository.madeUp

variable {u : String} {v : LevelViewModel} {l : DataLevel} {e : Edit}

theorem afterEdit_onlyChanges (found : at? v.levelsRepository.entities v.levelAt = some l) (same : l.uuid = u) :
    v.levelsRepository.OnlyChanges u (v.afterEdit (e.applied l)).levelsRepository := by
  have bounds := (at?_isSome_iff _ _).mp (by rw [found]; rfl)
  have place : v.levelsRepository.entities[v.levelAt.toNat]? = some l := by
    simpa [at?, bounds.1] using found
  refine ⟨by simp [afterEdit], ?_, ?_, ⟨[.updateData (e.applied l).uuid (e.applied l).asDictionary], rfl, ?_⟩, ?_⟩
  · intro i other member differs
    by_cases here : v.levelAt.toNat = i
    · rw [← here, place] at member
      cases member
      exact absurd same differs
    · simpa [afterEdit, List.getElem?_set, here] using member
  · intro i own member keeps
    by_cases here : v.levelAt.toNat = i
    · rw [← here] at member ⊢
      have bound := (List.getElem?_eq_some_iff.mp place).1
      exact ⟨e.applied l, by simp [afterEdit, bound], by rw [applied_uuid, same]⟩
    · exact ⟨own, by simpa [afterEdit, List.getElem?_set, here] using member, keeps⟩
  · intro c id differs
    have other : id ≠ (Write.updateData (e.applied l).uuid (e.applied l).asDictionary).target := by
      simpa [Write.target, same] using differs
    exact Write.apply_other c _ other
  · intro gone
    exact absurd same (gone l (List.mem_of_getElem? place))

theorem uuid_of_onlyChanges {l' : DataLevel} (touches : v.levelsRepository.OnlyChanges u
    (v.afterEdit l').levelsRepository) : l'.uuid = u := by
  obtain ⟨writes, db, others⟩ := touches.server
  have written : writes = [.updateData l'.uuid l'.asDictionary] := (List.append_cancel_left db).symm
  by_contra differs
  have unchanged := others (fun _ => some fun _ => none) l'.uuid differs
  rw [written] at unchanged
  simp only [Collection.after_cons, Collection.after_nil, Write.apply, if_true, Option.map_some,
    Option.some.injEq] at unchanged
  have field := congrFun unchanged "UUID"
  rw [Fields.updated_listed l'.asDictionary_uuid] at field
  cases field

theorem keeps_iff_onTarget [CanonicalForm] : e.Keeps u v ↔ e.OnTarget u v := by
  unfold Keeps OnTarget
  cases found : at? v.levelsRepository.entities v.levelAt with
  | some l =>
    by_cases skipped : e.Skipped l
    · have ran := (run_perform_some found e).1 skipped
      exact iff_of_true ⟨v, ran, .of_same rfl rfl⟩ (.inl skipped)
    · simp only [skipped, false_or]
      by_cases fits : e.Fits l
      · have ran := perform_fits found skipped fits
        constructor
        · intro given
          rcases given with ⟨v', ran', touches⟩
          rw [ran] at ran'
          cases ran'
          exact ⟨by simpa using uuid_of_onlyChanges touches, fits⟩
        · intro given
          rcases given with ⟨same, _⟩
          exact ⟨_, ran, afterEdit_onlyChanges found same⟩
      · obtain ⟨trap, v', traps⟩ := perform_misfits found skipped fits
        simp [traps, fits]
  | none =>
    obtain ⟨works, traps⟩ := perform_none found e
    by_cases given : e.Skipped v.levelsRepository.madeUp ∨ e.Fits v.levelsRepository.madeUp
    · obtain ⟨n, shown, ran⟩ := works given
      exact iff_of_true ⟨_, ran, .of_same rfl rfl⟩ given
    · obtain ⟨trap, v', ran⟩ := traps (fun skips => given (.inl skips)) fun fits => given (.inr fits)
      simp [ran, given]

end Edit

namespace EditorAction

def Keeps [CanonicalForm] (u : String) (v : LevelViewModel) : EditorAction → Prop
  | edit e => e.Keeps u v
  | add _ | deleteByName _ | deleteAt _ => True

def OnTarget [CanonicalForm] (u : String) (v : LevelViewModel) : EditorAction → Prop
  | edit e => e.OnTarget u v
  | add _ | deleteByName _ | deleteAt _ => True

end EditorAction

namespace LevelViewModel

/-- In every run from an editor's opening on, the edits only touch its level exactly as long as each of them is
    on target in the state it meets. -/
theorem editor_keeps_level_iff [CanonicalForm] {r : LevelsRepository} {at' : Int} {l : DataLevel}
    (opened : at? r.entities at' = some l) :
    ∃ v, init r at' = .ok v ∧ ∀ actions : List EditorAction,
      Along EditorAction.perform (EditorAction.Keeps l.uuid) actions v ↔
        Along EditorAction.perform (EditorAction.OnTarget l.uuid) actions v := by
  refine ⟨_, init_some opened, fun actions => Along.congr (fun v action (_ : True) => ?_)
    (fun _ _ _ _ _ => trivial) trivial⟩
  cases action with
  | edit e => exact Edit.keeps_iff_onTarget
  | add _ | deleteByName _ | deleteAt _ => exact Iff.rfl

local instance editorTexts : CanonicalForm := .composed

def threeLevels : LevelsRepository := { entities := [{ uuid := "first" }, { uuid := "second" }, { uuid := "third" }] }

theorem editor_keeps_level_after_later_delete :
    ∃ v, init threeLevels 1 = .ok v ∧ Along EditorAction.perform (EditorAction.Keeps "second")
      [.edit (.setName "new"), .deleteAt 2, .edit (.setOrder 7)] v := by
  obtain ⟨v, opened, keeps⟩ := editor_keeps_level_iff (r := threeLevels) (l := { uuid := "second" })
    (show at? threeLevels.entities 1 = some { uuid := "second" } from rfl)
  cases opened
  refine ⟨_, rfl, (keeps _).mpr
    (.cons (.inr ⟨rfl, trivial⟩) rfl (.cons trivial rfl (.cons (.inr ⟨rfl, trivial⟩) rfl ?_)))⟩
  trivial

/-- Once an earlier level is deleted the editor works on the level after its own. -/
theorem editor_leaves_level :
    ∃ v, init threeLevels 1 = .ok v ∧ ¬ Along EditorAction.perform (EditorAction.Keeps "second")
      [.deleteAt 0, .edit (.setName "new")] v := by
  refine ⟨_, rfl, fun along => ?_⟩
  have last := (along.tail rfl).1
  have target := Edit.keeps_iff_onTarget.mp last
  rcases target with skipped | ⟨uuid, _⟩
  · exact absurd (show "new" = "" from skipped) (by decide)
  · exact absurd uuid (by decide)

end LevelViewModel

end ArRobotCode
