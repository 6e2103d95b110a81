import ArRobotCode.Library.Triples
import ArRobotCode.Levels.Editing

namespace ArRobotCode

open Swift Trapping

structure DataLevel.WellFormed (l : DataLevel) : Prop where
  width : 0 ≤ l.width
  height : 0 ≤ l.height
  count : (l.tiles.length : Int) = l.width * l.height
  fits : (l.tiles.length : Int) ≤ intMax

def Edit.Valid : Edit → Prop
  | .setWidth newWidth => ∃ n ∈ parseInt newWidth, 0 ≤ n
  | .setHeight newHeight => ∃ n ∈ parseInt newHeight, 0 ≤ n
  | _ => True

namespace DataLevel

theorem new5x5_wellFormed (uuid name byUserID : String) : (new5x5 uuid name byUserID).WellFormed := by
  refine ⟨show (0 : Int) ≤ 5 by decide, show (0 : Int) ≤ 5 by decide, ?_, ?_⟩
  · simp [new5x5]
  · simp only [new5x5, List.length_replicate]
    decide

theorem WellFormed.resized {l' : DataLevel} {size : Int} (count : TileCount size) (width : 0 ≤ l'.width)
    (height : 0 ≤ l'.height) (product : l'.width * l'.height = size)
    (tiles : l'.tiles = List.replicate size.toNat {}) : l'.WellFormed := by
  obtain ⟨nonneg, fits⟩ := count
  have length : (l'.tiles.length : Int) = size := by
    rw [tiles, List.length_replicate]
    omega
  exact ⟨width, height, by rw [length, product], by rw [length]; exact fits⟩

theorem WellFormed.applied {l : DataLevel} {e : Edit} (formed : l.WellFormed) (fits : e.Fits l) (valid : e.Valid) :
    (e.applied l).WellFormed := by
  cases e with
  | swapTile at' | swipeLeftTile at' | swipeRightTile at' | setToStartTile at' =>
    exact ⟨formed.width, formed.height, by simpa [Edit.applied] using formed.count,
      by simpa [Edit.applied] using formed.fits⟩
  | setName _ | setPublic _ | setOrder _ | setChapter _ =>
    exact ⟨formed.width, formed.height, formed.count, formed.fits⟩
  | setWidth newWidth =>
    obtain ⟨n, parsed, count⟩ := fits
    obtain ⟨m, parsed', nonneg⟩ := valid
    cases parsed.symm.trans parsed'
    simp only [Edit.applied, Option.mem_def.mp parsed, Option.elim_some]
    exact .resized count nonneg formed.height rfl rfl
  | setHeight newHeight =>
    obtain ⟨n, parsed, count⟩ := fits
    obtain ⟨m, parsed', nonneg⟩ := valid
    cases parsed.symm.trans parsed'
    simp only [Edit.applied, Option.mem_def.mp parsed, Option.elim_some]
    exact .resized count formed.width nonneg rfl rfl

end DataLevel

namespace LevelViewModel

def Holds (at' : Int) (v : LevelViewModel) : Prop :=
  v.levelAt = at' ∧ ∃ l, at? v.levelsRepository.entities at' = some l ∧ l.WellFormed

theorem perform_holds [CanonicalForm] {at' : Int} {e : Edit} (valid : e.Valid) :
    Triple (Holds at') e.perform (fun _ => Holds at') fun _ _ => True := by
  rintro v ⟨rfl, l, found, formed⟩
  by_cases skipped : e.Skipped l
  · rw [(Edit.run_perform_some found e).1 skipped]
    exact ⟨rfl, l, found, formed⟩
  · by_cases fits : e.Fits l
    · rw [Edit.perform_fits found skipped fits]
      exact ⟨rfl, e.applied l, at?_set found, formed.applied fits valid⟩
    · obtain ⟨trap, v', traps⟩ := Edit.perform_misfits found skipped fits
      rw [traps]
      trivial

end LevelViewModel

/-- A level that an editor, opened on a new level, has made by valid edits. -/
structure DataLevel.Edited [CanonicalForm] (l : DataLevel) (edits : List Edit) : Prop where
  valid : ∀ e ∈ edits, e.Valid
  made : ∃ repository at' uuid name byUserID v v',
    at? repository.entities at' = some (DataLevel.new5x5 uuid name byUserID) ∧
    LevelViewModel.init repository at' = .ok v ∧ (runAll Edit.perform edits).run v = .ok () v' ∧
    at? v'.levelsRepository.entities at' = some l

theorem DataLevel.Edited.wellFormed [CanonicalForm] {l : DataLevel} {edits : List Edit} (edited : l.Edited edits) :
    l.WellFormed := by
  obtain ⟨repository, at', uuid, name, byUserID, v, v', found, opened, ran, last⟩ := edited.made
  have start : v.Holds at' := by
    rw [LevelViewModel.init_some found] at opened
    cases opened
    exact ⟨rfl, _, found, new5x5_wellFormed uuid name byUserID⟩
  have kept := (Triple.runAll fun e member => LevelViewModel.perform_holds (edited.valid e member)).of_run_ok start ran
  obtain ⟨_, l', found', formed⟩ := kept
  cases found'.symm.trans last
  exact formed

end ArRobotCode
