import Mathlib

namespace Structured

open Computability

/-- A program that emits symbols, in which a test may come out either way. -/
inductive Program (ι α : Type) where
  | done
  | emit (id : ι) (symbols : Set α) (next : Program ι α)
  /-- A loop, with the number of its passes where that is known. -/
  | loop (id : ι) (times : Option Nat) (body next : Program ι α)
  | choose (id : ι) (yes no next : Program ι α)
  | pass (id : ι) (next : Program ι α)

variable {ι α : Type}

namespace Program

def letters (symbols : Set α) : Language α := (fun a => [a]) '' symbols

/-- The words that the program can emit from beginning to end. -/
def meaning : Program ι α → Language α
  | done => 1
  | emit _ symbols next => letters symbols * meaning next
  | loop _ none body next => (meaning body)∗ * meaning next
  | loop _ (some times) body next => meaning body ^ times * meaning next
  | choose _ yes no next => (meaning yes + meaning no) * meaning next
  | pass _ next => meaning next

section Meaning

variable {id : ι} {symbols : Set α} {times : Nat} {body next yes no : Program ι α}

theorem meaning_done : (done : Program ι α).meaning = 1 := rfl

theorem meaning_emit : (emit id symbols next).meaning = letters symbols * next.meaning := rfl

theorem meaning_loop_none : (loop id none body next).meaning = (body.meaning)∗ * next.meaning := rfl

theorem meaning_loop_some : (loop id (some times) body next).meaning = body.meaning ^ times * next.meaning := rfl

theorem meaning_choose : (choose id yes no next).meaning = (yes.meaning + no.meaning) * next.meaning := rfl

theorem meaning_pass : (pass id next).meaning = next.meaning := rfl

end Meaning

def Vocal : Program ι α → Prop
  | done => True
  | emit _ symbols next => symbols.Nonempty ∧ Vocal next
  | loop _ _ body next => Vocal body ∧ Vocal next
  | choose _ yes no next => Vocal yes ∧ Vocal no ∧ Vocal next
  | pass _ next => Vocal next

theorem Vocal.meaning_nonempty {p : Program ι α} (vocal : p.Vocal) : ∃ word, word ∈ p.meaning := by
  induction p with
  | done => exact ⟨[], Language.nil_mem_one⟩
  | emit id symbols next ih =>
    obtain ⟨a, member⟩ := vocal.1
    obtain ⟨word, inside⟩ := ih vocal.2
    exact ⟨_, Language.append_mem_mul ⟨a, member, rfl⟩ inside⟩
  | loop id times body next ihBody ihNext =>
    obtain ⟨word, inside⟩ := ihNext vocal.2
    obtain ⟨round, within⟩ := ihBody vocal.1
    cases times with
    | none => exact ⟨_, Language.append_mem_mul (Language.nil_mem_kstar _) inside⟩
    | some times =>
      refine ⟨_, Language.append_mem_mul (Language.mem_pow.mpr ⟨List.replicate times round, rfl, by simp, ?_⟩) inside⟩
      intro part member
      rwa [List.eq_of_mem_replicate member]
  | choose id yes no next ihYes ihNo ihNext =>
    obtain ⟨word, inside⟩ := ihNext vocal.2.2
    obtain ⟨branch, within⟩ := ihYes vocal.1
    exact ⟨_, Language.append_mem_mul ((Language.mem_add _ _ _).mpr (.inl within)) inside⟩
  | pass id next ih => exact ih vocal

/-- How many steps the program takes at most where the passes of its loops are known. -/
def steps : Program ι α → Nat
  | done => 0
  | emit _ _ next => next.steps + 1
  | loop _ none _ _ => 0
  | loop _ (some times) body next => times * (body.steps + 1) + next.steps + 1
  | choose _ yes no next => yes.steps + no.steps + next.steps + 1
  | pass _ next => next.steps + 1

end Program

section Continuations

def remaining (k : List (Program ι α)) : Language α := (k.map Program.meaning).prod

def stepsLeft (k : List (Program ι α)) : Nat := (k.map Program.steps).sum

theorem remaining_cons (p : Program ι α) (k : List (Program ι α)) : remaining (p :: k) = p.meaning * remaining k := by
  simp [remaining]

theorem stepsLeft_cons (p : Program ι α) (k : List (Program ι α)) : stepsLeft (p :: k) = p.steps + stepsLeft k := by
  simp [stepsLeft]

theorem remaining_nonempty {k : List (Program ι α)} (vocal : ∀ p ∈ k, p.Vocal) : ∃ word, word ∈ remaining k := by
  induction k with
  | nil => exact ⟨[], Language.nil_mem_one⟩
  | cons p k ih =>
    obtain ⟨first, inside⟩ := (vocal p List.mem_cons_self).meaning_nonempty
    obtain ⟨rest, within⟩ := ih fun q member => vocal q (List.mem_cons_of_mem _ member)
    rw [remaining_cons]
    exact ⟨_, Language.append_mem_mul inside within⟩

/-- What is emitted on the way from the first programs to the second ones is a beginning of what they can emit. -/
def Leads (k : List (Program ι α)) (word : List α) (k' : List (Program ι α)) : Prop :=
  ∀ rest ∈ remaining k', word ++ rest ∈ remaining k

namespace Leads

variable {k k' k'' : List (Program ι α)} {id : ι} {body next first second : Program ι α}

theorem refl (k : List (Program ι α)) : Leads k [] k := fun _ member => member

theorem trans {word word' : List α} (one : Leads k word k') (two : Leads k' word' k'') :
    Leads k (word ++ word') k'' := by
  intro rest member
  rw [List.append_assoc]
  exact one _ (two rest member)

theorem of_le (le : remaining k' ≤ remaining k) : Leads k [] k' := fun _ member => le member

theorem done : Leads (.done :: k) [] k := by
  apply of_le
  rw [remaining_cons, Program.meaning_done, one_mul]

theorem pass : Leads (.pass id next :: k) [] (next :: k) := by
  apply of_le
  rw [remaining_cons, remaining_cons, Program.meaning_pass]

theorem emit {symbols : Set α} {a : α} (member : a ∈ symbols) : Leads (.emit id symbols next :: k) [a] (next :: k) := by
  intro rest inside
  rw [remaining_cons, Program.meaning_emit, mul_assoc, ← remaining_cons]
  exact Language.append_mem_mul ⟨a, member, rfl⟩ inside

theorem left : Leads (.choose id first second next :: k) [] (first :: next :: k) := by
  apply of_le
  rw [remaining_cons, remaining_cons, remaining_cons, Program.meaning_choose, mul_assoc]
  gcongr
  exact le_self_add

theorem right : Leads (.choose id first second next :: k) [] (second :: next :: k) := by
  apply of_le
  rw [remaining_cons, remaining_cons, remaining_cons, Program.meaning_choose, mul_assoc]
  gcongr
  exact le_add_self

theorem enter {times : Nat} :
    Leads (.loop id (some (times + 1)) body next :: k) [] (body :: .loop id (some times) body next :: k) := by
  apply of_le
  simp only [remaining_cons, Program.meaning_loop_some, pow_succ', mul_assoc, le_refl]

theorem leave : Leads (.loop id (some 0) body next :: k) [] (next :: k) := by
  apply of_le
  simp only [remaining_cons, Program.meaning_loop_some, pow_zero, one_mul, le_refl]

theorem enter_any : Leads (.loop id none body next :: k) [] (body :: .loop id none body next :: k) := by
  apply of_le
  simp only [remaining_cons, Program.meaning_loop_none, ← mul_assoc]
  gcongr
  exact mul_kstar_le_kstar

theorem leave_any : Leads (.loop id none body next :: k) [] (next :: k) := by
  apply of_le
  rw [remaining_cons, remaining_cons, Program.meaning_loop_none, mul_assoc]
  exact le_mul_of_one_le_left' one_le_kstar

end Leads

end Continuations

end Structured
