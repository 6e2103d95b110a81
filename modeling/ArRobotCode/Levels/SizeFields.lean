import ArRobotCode.Levels.EditRuns

namespace ArRobotCode

open Swift

namespace LevelViewModel

/-- The edit does not trap, and leaves the level as it was or with the number of the text as its new side and as many
    tiles as its sides say. -/
def TakesSize [CanonicalForm] (v : LevelViewModel) (l : DataLevel) (e : Edit) (text : String) (side : DataLevel → Int) :
    Prop :=
  ∃ v' l', e.perform.run v = .ok () v' ∧ at? v'.levelsRepository.entities v.levelAt = some l' ∧
    (l' = l ∨ ∃ n, parseInt text = some n ∧ 0 ≤ n ∧ side l' = n ∧ (l'.tiles.length : Int) = l'.width * l'.height)

/-- The text is a number: the side's own one, or one that is not negative and leaves the number of tiles an `Int`. -/
def SizeText (text : String) (current other : Int) : Prop :=
  ∃ n, parseInt text = some n ∧ (n = current ∨ (0 ≤ n ∧ n * other ≤ intMax))

instance (text : String) (current other : Int) : Decidable (SizeText text current other) :=
  match parsed : parseInt text with
  | none => .isFalse (by simp [SizeText, parsed])
  | some n => decidable_of_iff (n = current ∨ (0 ≤ n ∧ n * other ≤ intMax)) (by simp [SizeText, parsed])

variable {v : LevelViewModel} {l : DataLevel} {e : Edit} {text : String} {side : DataLevel → Int} {other : Int}

theorem takesSize_of_skipped [CanonicalForm] (found : at? v.levelsRepository.entities v.levelAt = some l)
    (skipped : e.Skipped l) :
    v.TakesSize l e text side :=
  ⟨v, l, (Edit.run_perform_some found e).1 skipped, found, .inl rfl⟩

theorem not_takesSize_of_misfit [CanonicalForm] (found : at? v.levelsRepository.entities v.levelAt = some l)
    (edits : ¬ e.Skipped l) (misfit : ¬ e.Fits l) : ¬ v.TakesSize l e text side := by
  intro takes
  obtain ⟨v', l', ran, _⟩ := takes
  obtain ⟨trap, v'', traps⟩ := Edit.perform_misfits found edits misfit
  rw [traps] at ran
  cases ran

theorem takesSize_fits_iff [CanonicalForm] (found : at? v.levelsRepository.entities v.levelAt = some l)
    (edits : ¬ e.Skipped l) (fits : e.Fits l) {n : Int} (parsed : parseInt text = some n) (differs : n ≠ side l)
    (asked : side (e.applied l) = n)
    (counted : ((e.applied l).tiles.length : Int) = (e.applied l).width * (e.applied l).height) :
    v.TakesSize l e text side ↔ 0 ≤ n := by
  have ran := Edit.perform_fits found edits fits
  have changed : e.applied l ≠ l := fun same => differs (by rw [← asked, same])
  constructor
  · intro takes
    obtain ⟨v', l', ran', found', outcome⟩ := takes
    rw [ran] at ran'
    cases ran'
    cases (at?_set found).symm.trans found'
    rcases outcome with same | ⟨m, parsed', nonneg, _⟩
    · exact absurd same changed
    · cases parsed.symm.trans parsed'
      exact nonneg
  · intro nonneg
    exact ⟨_, _, ran, at?_set found, .inr ⟨n, parsed, nonneg, asked, counted⟩⟩

theorem sizeText_iff {n : Int} (parsed : parseInt text = some n) {current : Int} (differs : n ≠ current) :
    SizeText text current other ↔ 0 ≤ n ∧ n * other ≤ intMax := by
  constructor
  · intro sized
    obtain ⟨m, parsed', least⟩ := sized
    cases parsed.symm.trans parsed'
    exact least.resolve_left differs
  · intro least
    exact ⟨n, parsed, .inr least⟩

theorem takesSize_iff [CanonicalForm] (found : at? v.levelsRepository.entities v.levelAt = some l) (nonneg : 0 ≤ other)
    (skips : e.Skipped l ↔ parseInt text = some (side l))
    (fits : e.Fits l ↔ ∃ n, parseInt text = some n ∧ DataLevel.TileCount (n * other))
    (resizes : ∀ n, parseInt text = some n → DataLevel.TileCount (n * other) → side (e.applied l) = n ∧
      (((e.applied l).tiles.length : Int) = (e.applied l).width * (e.applied l).height)) :
    v.TakesSize l e text side ↔ SizeText text (side l) other := by
  by_cases skipped : e.Skipped l
  · have sized : SizeText text (side l) other := ⟨side l, skips.mp skipped, .inl rfl⟩
    exact iff_of_true (takesSize_of_skipped found skipped) sized
  · by_cases fitting : e.Fits l
    · obtain ⟨n, parsed, count⟩ := fits.mp fitting
      obtain ⟨asked, counted⟩ := resizes n parsed count
      have differs : n ≠ side l := fun same => skipped (skips.mpr (same ▸ parsed))
      rw [takesSize_fits_iff found skipped fitting parsed differs asked counted, sizeText_iff parsed differs]
      constructor
      · intro least
        exact ⟨least, count.2⟩
      · intro both
        exact both.1
    · apply iff_of_false (not_takesSize_of_misfit found skipped fitting)
      intro sized
      obtain ⟨n, parsed, same | ⟨least, most⟩⟩ := sized
      · exact skipped (skips.mpr (same ▸ parsed))
      · exact fitting (fits.mpr ⟨n, parsed, Int.mul_nonneg least nonneg, most⟩)

theorem resized_count {size : Int} (count : DataLevel.TileCount size) :
    ((List.replicate size.toNat ({} : DataTile)).length : Int) = size := by
  obtain ⟨nonneg, _⟩ := count
  rw [List.length_replicate]
  omega

/-- The size fields take a text exactly when it is a number they already show, or one that is not negative and does
    not make the number of tiles overflow. -/
theorem size_fields_safe_iff [CanonicalForm] (found : at? v.levelsRepository.entities v.levelAt = some l)
    (width : 0 ≤ l.width) (height : 0 ≤ l.height) (text : String) :
    (v.TakesSize l (.setWidth text) text (·.width) ↔ SizeText text l.width l.height) ∧
      (v.TakesSize l (.setHeight text) text (·.height) ↔ SizeText text l.height l.width) := by
  constructor
  · apply takesSize_iff found height
    · exact eq_comm
    · exact Iff.rfl
    · intro n parsed count
      simp only [Edit.applied, parsed, Option.elim_some]
      exact ⟨trivial, resized_count count⟩
  · apply takesSize_iff found width
    · exact eq_comm
    · simp only [Edit.Fits, Option.mem_def, Int.mul_comm l.width]
    · intro n parsed count
      rw [Int.mul_comm] at count
      simp only [Edit.applied, parsed, Option.elim_some]
      exact ⟨trivial, resized_count count⟩

local instance sizeTexts : CanonicalForm := .composed

theorem size_fields_safe_iff_narrow : onNewLevel.TakesSize onNewLevel.level (.setWidth "3") "3" (·.width) :=
  (size_fields_safe_iff (v := onNewLevel) rfl (by decide) (by decide) "3").1.mpr (by decide)

/-- An emptied width field on a new level. -/
theorem size_field_traps_on_empty_text :
    (at? onNewLevel.levelsRepository.entities onNewLevel.levelAt = some onNewLevel.level ∧
      onNewLevel.level.WellFormed) ∧
    ¬ onNewLevel.TakesSize onNewLevel.level (.setWidth "") "" (·.width) := by
  have found : at? onNewLevel.levelsRepository.entities onNewLevel.levelAt = some onNewLevel.level := rfl
  refine ⟨⟨found, DataLevel.new5x5_wellFormed _ _ _⟩, fun takes => ?_⟩
  obtain ⟨trap, v', traps⟩ := Edit.perform_misfits found (e := .setWidth "")
    (show ¬ some (5 : Int) = parseInt "" by decide) (by
      intro fits
      obtain ⟨n, parsed, _⟩ := fits
      exact absurd parsed (by simp [show parseInt "" = none by decide]))
  obtain ⟨v'', l', ran, _⟩ := takes
  rw [traps] at ran
  cases ran

end LevelViewModel

end ArRobotCode
