import ArRobotCode.Levels.LevelViewModel

namespace ArRobotCode

open Swift

namespace LevelViewModel

def afterEdit (v : LevelViewModel) (l' : DataLevel) : LevelViewModel :=
  { v with
    level := l'
    levelsRepository :=
      { v.levelsRepository with
        entities := v.levelsRepository.entities.set v.levelAt.toNat l'
        entitiesSubject :=
          v.levelsRepository.entitiesSubject ++ [v.levelsRepository.entities.set v.levelAt.toNat l']
        db := v.levelsRepository.db ++ [.updateData l'.uuid l'.asDictionary] } }

def drew (v : LevelViewModel) (n : Nat) : LevelViewModel :=
  { v with levelsRepository := { v.levelsRepository with drawn := v.levelsRepository.drawn + n } }

variable {v : LevelViewModel} {l l' : DataLevel} {change : Method DataLevel Unit}

theorem init_some {r : LevelsRepository} {at' : Int} {l : DataLevel} (found : at? r.entities at' = some l) :
    init r at' = .ok { levelsRepository := r, levelAt := at', level := l } := by
  simp only [init, LevelsRepository.run_getLevel_some found]
  rfl

theorem onRepository_run {α : Type} (x : Method LevelsRepository α) (v : LevelViewModel) :
    (onRepository x).run v = match x.run v.levelsRepository with
      | .ok a r => .ok a { v with levelsRepository := r }
      | .error trap r => .error trap { v with levelsRepository := r } := by
  rw [onRepository, run_within]
  cases x.run v.levelsRepository <;> rfl

theorem run_edited_some (found : at? v.levelsRepository.entities v.levelAt = some l)
    (ran : change.run l = .ok () l') : (edited change).run v = .ok () (v.afterEdit l') := by
  have changed := at?_set (b := l') found
  simp only [edited, EStateM.run_bind, EStateM.run_get, onRepository_run,
    LevelsRepository.run_changeInPlace_some found, ran]
  rw [LevelsRepository.run_getLevel_some (by exact changed)]
  simp only [EStateM.run_modify]
  rw [LevelsRepository.run_triggerUpdate_some (by exact changed)]
  rfl

theorem edited_traps_some (found : at? v.levelsRepository.entities v.levelAt = some l) {trap : Trap}
    (ran : change.run l = .error trap l') : ∃ v', (edited change).run v = .error trap v' := by
  simp only [edited, EStateM.run_bind, EStateM.run_get, onRepository_run,
    LevelsRepository.run_changeInPlace_some found, ran]
  exact ⟨_, rfl⟩

theorem run_edited_none (missing : at? v.levelsRepository.entities v.levelAt = none)
    (ran : change.run v.levelsRepository.madeUp = .ok () l') :
    ∃ shown, (edited change).run v = .ok () { v.drew 2 with level := shown } := by
  simp only [edited, EStateM.run_bind, EStateM.run_get, onRepository_run,
    LevelsRepository.run_changeInPlace_none missing, ran]
  rw [LevelsRepository.run_getLevel_none (by exact missing)]
  simp only [EStateM.run_modify]
  rw [LevelsRepository.run_triggerUpdate_none (by exact missing)]
  exact ⟨_, rfl⟩

theorem edited_traps_none (missing : at? v.levelsRepository.entities v.levelAt = none) {trap : Trap}
    (ran : change.run v.levelsRepository.madeUp = .error trap l') : ∃ v', (edited change).run v = .error trap v' := by
  simp only [edited, EStateM.run_bind, EStateM.run_get, onRepository_run,
    LevelsRepository.run_changeInPlace_none missing, ran]
  exact ⟨_, rfl⟩

theorem run_editedUnless_some {same : DataLevel → Prop} [DecidablePred same]
    (found : at? v.levelsRepository.entities v.levelAt = some l) :
    (editedUnless same change).run v = if same l then .ok () v else (edited change).run v := by
  simp only [editedUnless, EStateM.run_bind, EStateM.run_get, onRepository_run,
    LevelsRepository.run_getLevel_some found]
  split <;> rfl

theorem run_editedUnless_none {same : DataLevel → Prop} [DecidablePred same]
    (missing : at? v.levelsRepository.entities v.levelAt = none) :
    (editedUnless same change).run v =
      if same v.levelsRepository.madeUp then .ok () (v.drew 1) else (edited change).run (v.drew 1) := by
  simp only [editedUnless, EStateM.run_bind, EStateM.run_get, onRepository_run,
    LevelsRepository.run_getLevel_none missing]
  split <;> rfl

end LevelViewModel

namespace Edit

open LevelViewModel

theorem fits_madeUp (r r' : LevelsRepository) (e : Edit) : e.Fits r.madeUp ↔ e.Fits r'.madeUp := by
  cases e <;> exact Iff.rfl

variable [CanonicalForm] {v : LevelViewModel} {l : DataLevel} {e : Edit}

theorem run_perform_some (found : at? v.levelsRepository.entities v.levelAt = some l) (e : Edit) :
    (e.Skipped l → e.perform.run v = .ok () v) ∧
      (¬ e.Skipped l → e.perform.run v = (edited e.change).run v) := by
  cases e with
  | swapTile at' | swipeLeftTile at' | swipeRightTile at' | setToStartTile at' =>
    exact ⟨False.elim, fun _ => rfl⟩
  | setName newName =>
    constructor
    · intro empty
      simp only [Skipped] at empty
      simp [perform, LevelViewModel.setName, empty]
    · intro named
      simp only [Skipped] at named
      simp [perform, LevelViewModel.setName, named, change]
  | setWidth _ | setHeight _ | setPublic _ | setOrder _ | setChapter _ =>
    exact ⟨fun same => (run_editedUnless_some found).trans (if_pos same),
      fun differs => (run_editedUnless_some found).trans (if_neg differs)⟩

theorem run_perform_none (missing : at? v.levelsRepository.entities v.levelAt = none) (e : Edit) :
    ∃ n, (e.Skipped v.levelsRepository.madeUp → e.perform.run v = .ok () (v.drew n)) ∧
      (¬ e.Skipped v.levelsRepository.madeUp → e.perform.run v = (edited e.change).run (v.drew n)) := by
  cases e with
  | swapTile at' | swipeLeftTile at' | swipeRightTile at' | setToStartTile at' =>
    exact ⟨0, False.elim, fun _ => rfl⟩
  | setName newName =>
    refine ⟨0, ?_, ?_⟩
    · intro empty
      simp only [Skipped] at empty
      simp [perform, LevelViewModel.setName, empty, drew]
    · intro named
      simp only [Skipped] at named
      simp [perform, LevelViewModel.setName, named, change, drew]
  | setWidth _ | setHeight _ | setPublic _ | setOrder _ | setChapter _ =>
    exact ⟨1, fun same => (run_editedUnless_none missing).trans (if_pos same),
      fun differs => (run_editedUnless_none missing).trans (if_neg differs)⟩

theorem perform_fits (found : at? v.levelsRepository.entities v.levelAt = some l) (edits : ¬ e.Skipped l)
    (fits : e.Fits l) : e.perform.run v = .ok () (v.afterEdit (e.applied l)) := by
  rw [(run_perform_some found e).2 edits]
  exact run_edited_some found (run_change fits)

theorem perform_misfits (found : at? v.levelsRepository.entities v.levelAt = some l) (edits : ¬ e.Skipped l)
    (misfits : ¬ e.Fits l) : ∃ trap v', e.perform.run v = .error trap v' := by
  obtain ⟨trap, l', ran⟩ := change_traps misfits
  rw [(run_perform_some found e).2 edits]
  exact ⟨trap, edited_traps_some found ran⟩

theorem perform_none (missing : at? v.levelsRepository.entities v.levelAt = none) (e : Edit) :
    (e.Skipped v.levelsRepository.madeUp ∨ e.Fits v.levelsRepository.madeUp →
      ∃ n shown, e.perform.run v = .ok () { v.drew n with level := shown }) ∧
    (¬ e.Skipped v.levelsRepository.madeUp → ¬ e.Fits v.levelsRepository.madeUp →
      ∃ trap v', e.perform.run v = .error trap v') := by
  obtain ⟨n, skipped, edits⟩ := run_perform_none missing e
  have missing' : at? (v.drew n).levelsRepository.entities (v.drew n).levelAt = none := missing
  constructor
  · intro given
    by_cases skips : e.Skipped v.levelsRepository.madeUp
    · exact ⟨n, v.level, skipped skips⟩
    · have fits := (fits_madeUp v.levelsRepository (v.drew n).levelsRepository e).mp (given.resolve_left skips)
      obtain ⟨shown, ran⟩ := run_edited_none missing' (run_change fits)
      exact ⟨n + 2, shown, (edits skips).trans ran⟩
  · intro skips misfits
    have misfits' := mt (fits_madeUp v.levelsRepository (v.drew n).levelsRepository e).mpr misfits
    obtain ⟨trap, l', ran⟩ := change_traps misfits'
    obtain ⟨v', traps⟩ := edited_traps_none missing' ran
    exact ⟨trap, v', (edits skips).trans traps⟩

end Edit

end ArRobotCode
