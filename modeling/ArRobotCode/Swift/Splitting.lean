import Mathlib.Data.List.Basic
import Mathlib.Data.Bool.AllAny
import ArRobotCode.Swift.Runtime

namespace ArRobotCode.Swift

/-- A text that a space neither is part of nor joins. -/
structure Word (text : String) : Prop where
  nonempty : text ≠ ""
  ascii : ∀ c ∈ text.toList, c.toNat < 128 ∧ c ≠ ' '

theorem Word.of_all {text : String} (nonempty : text ≠ "")
    (ascii : (text.toList.all fun c => c.toNat < 128 ∧ c ≠ ' ') = true) : Word text :=
  ⟨nonempty, List.all_iff_forall_prop.mp ascii⟩

theorem Word.toList_ne_nil {text : String} (word : Word text) : text.toList ≠ [] :=
  fun empty => word.nonempty (String.toList_eq_nil_iff.mp empty)

theorem Word.spaceless {text : String} (word : Word text) : ' ' ∉ text.toList :=
  fun member => (word.ascii ' ' member).2 rfl

theorem three_parts_toList (first word rest : String) :
    (first ++ (" " ++ word ++ " ") ++ rest).toList =
      first.toList ++ ' ' :: (word.toList ++ ' ' :: rest.toList) := by
  simp

variable [Graphemes]

open Graphemes

def endsPrepended (text : String) : Bool := text.toList.getLast?.any isPrepended

def startsExtending (text : String) : Bool := text.toList.head?.any isExtending

def lastPrepended (before : Bool) (word : List Char) : Bool := (word.getLast?.map isPrepended).getD before

variable {separator : Char}

theorem splitFrom_append {word : List Char} (free : separator ∉ word) (prepended : Bool) (piece rest : List Char) :
    splitFrom separator prepended piece (word ++ rest) =
      splitFrom separator (lastPrepended prepended word) (piece ++ word) rest := by
  induction word generalizing prepended piece with
  | nil => simp [lastPrepended]
  | cons c word ih =>
    have other : c ≠ separator := fun same => free (same ▸ List.mem_cons_self)
    have last : lastPrepended (isPrepended c) word = lastPrepended prepended (c :: word) := by
      cases word with
      | nil => rfl
      | cons d word => simp [lastPrepended, List.getLast?_cons]
    rw [List.cons_append, splitFrom, if_neg (fun both => other both.1),
      ih (fun member => free (List.mem_cons_of_mem c member)), last, List.append_assoc]
    rfl

theorem splitFrom_separator {piece rest : List Char} (nonempty : piece ≠ [])
    (alone : rest.head?.any isExtending = false) :
    splitFrom separator false piece (separator :: rest) =
      piece :: splitFrom separator (isPrepended separator) [] rest := by
  rw [splitFrom, if_pos ⟨rfl, rfl, alone⟩, if_neg nonempty]
  rfl

theorem splitFrom_joined {prepended : Bool} {piece rest : List Char}
    (joined : prepended = true ∨ rest.head?.any isExtending = true) :
    splitFrom separator prepended piece (separator :: rest) =
      splitFrom separator (isPrepended separator) (piece ++ [separator]) rest := by
  rw [splitFrom, if_neg]
  intro separates
  obtain ⟨_, plain, alone⟩ := separates
  rcases joined with joined | joined
  · rw [plain] at joined
    cases joined
  · rw [alone] at joined
    cases joined

theorem splitFrom_begun (cs : List Char) (prepended : Bool) :
    ∃ more later, ∀ begun : List Char, begun ≠ [] →
      splitFrom separator prepended begun cs = (begun ++ more) :: later := by
  induction cs generalizing prepended with
  | nil =>
    refine ⟨[], [], ?_⟩
    intro begun nonempty
    rw [splitFrom, if_neg nonempty, List.append_nil]
  | cons c cs ih =>
    by_cases alone : c = separator ∧ prepended = false ∧ cs.head?.any isExtending = false
    · refine ⟨[], splitFrom separator (isPrepended c) [] cs, ?_⟩
      intro begun nonempty
      rw [splitFrom, if_pos alone, if_neg nonempty, List.append_nil]
      rfl
    · obtain ⟨more, later, same⟩ := ih (isPrepended c)
      refine ⟨c :: more, later, ?_⟩
      intro begun nonempty
      rw [splitFrom, if_neg alone, same (begun ++ [c]) (by simp), List.append_assoc]
      rfl

theorem Word.not_startsExtending {text : String} (word : Word text) : startsExtending text = false := by
  unfold startsExtending
  cases first : text.toList.head? with
  | none => rfl
  | some c => exact ascii_extending c (word.ascii c (List.mem_of_mem_head? first)).1

theorem Word.not_endsPrepended {text : String} (word : Word text) : endsPrepended text = false := by
  unfold endsPrepended
  cases last : text.toList.getLast? with
  | none => rfl
  | some c => exact ascii_prepended c (word.ascii c (List.mem_of_getLast? last)).1

theorem space_not_prepended : isPrepended ' ' = false := ascii_prepended ' ' (by decide)

theorem lastPrepended_of_ne_nil {before : Bool} {text : String} (nonempty : text.toList ≠ []) :
    lastPrepended before text.toList = endsPrepended text := by
  unfold lastPrepended endsPrepended
  cases last : text.toList.getLast? with
  | none => exact absurd (List.getLast?_eq_none_iff.mp last) nonempty
  | some c => rfl

theorem Word.split {text : String} (word : Word text) : Swift.split text ' ' = [text] := by
  have parts := splitFrom_append word.spaceless false [] []
  rw [List.append_nil, List.nil_append, splitFrom, if_neg word.toList_ne_nil] at parts
  unfold Swift.split
  rw [parts]
  simp

theorem Word.split_pair {first second : String} (one : Word first) (two : Word second) :
    Swift.split (first ++ " " ++ second) ' ' = [first, second] := by
  have last := splitFrom_append two.spaceless false [] []
  rw [List.append_nil, List.nil_append, splitFrom, if_neg two.toList_ne_nil] at last
  have parts : (first ++ " " ++ second).toList = first.toList ++ ' ' :: second.toList := by simp
  unfold Swift.split
  rw [parts, splitFrom_append one.spaceless, lastPrepended_of_ne_nil one.toList_ne_nil, one.not_endsPrepended,
    List.nil_append, splitFrom_separator one.toList_ne_nil two.not_startsExtending, space_not_prepended, last]
  simp

section Messages

variable {first word rest : String}

theorem split_word_rest (isWord : Word word) (alone : startsExtending rest = false) :
    splitFrom ' ' false [] (word.toList ++ ' ' :: rest.toList) =
      word.toList :: splitFrom ' ' false [] rest.toList := by
  rw [splitFrom_append isWord.spaceless, lastPrepended_of_ne_nil isWord.toList_ne_nil, isWord.not_endsPrepended,
    List.nil_append, splitFrom_separator isWord.toList_ne_nil alone, space_not_prepended]

theorem head?_word_rest (isWord : Word word) (rest : String) :
    (word.toList ++ ' ' :: rest.toList).head?.any isExtending = false := by
  have starts := isWord.not_startsExtending
  rw [List.head?_append_of_ne_nil _ isWord.toList_ne_nil]
  exact starts

theorem split_three_parts (nonempty : first ≠ "") (spaceless : ' ' ∉ first.toList) (isWord : Word word)
    (plain : endsPrepended first = false) (alone : startsExtending rest = false) :
    split (first ++ (" " ++ word ++ " ") ++ rest) ' ' = first :: word :: split rest ' ' := by
  have some : first.toList ≠ [] := fun empty => nonempty (String.toList_eq_nil_iff.mp empty)
  unfold split
  rw [three_parts_toList, splitFrom_append spaceless, lastPrepended_of_ne_nil some, plain, List.nil_append,
    splitFrom_separator some (head?_word_rest isWord rest), space_not_prepended, split_word_rest isWord alone]
  simp

theorem split_joined_rest (nonempty : first ≠ "") (spaceless : ' ' ∉ first.toList) (isWord : Word word)
    (plain : endsPrepended first = false) (joined : startsExtending rest = true) :
    ∃ more later, split (first ++ (" " ++ word ++ " ") ++ rest) ' ' = first :: (word ++ " " ++ more) :: later := by
  have some : first.toList ≠ [] := fun empty => nonempty (String.toList_eq_nil_iff.mp empty)
  obtain ⟨more, later, begun⟩ := @splitFrom_begun _ ' ' rest.toList false
  refine ⟨String.ofList more, later.map String.ofList, ?_⟩
  unfold split
  rw [three_parts_toList, splitFrom_append spaceless, lastPrepended_of_ne_nil some, plain, List.nil_append,
    splitFrom_separator some (head?_word_rest isWord rest), space_not_prepended, splitFrom_append isWord.spaceless,
    splitFrom_joined (.inr joined), space_not_prepended, begun _ (by simp)]
  simp [String.ofList_append, String.append_assoc]

theorem split_joined_first (nonempty : first ≠ "") (spaceless : ' ' ∉ first.toList) (isWord : Word word)
    (joined : endsPrepended first = true) :
    ∃ piece, split (first ++ (" " ++ word ++ " ") ++ rest) ' ' =
      piece :: if startsExtending rest then (split rest ' ').tail else split rest ' ' := by
  have some : first.toList ≠ [] := fun empty => nonempty (String.toList_eq_nil_iff.mp empty)
  unfold split
  rw [three_parts_toList, splitFrom_append spaceless, lastPrepended_of_ne_nil some, joined, List.nil_append,
    splitFrom_joined (.inl rfl), space_not_prepended, splitFrom_append isWord.spaceless,
    lastPrepended_of_ne_nil isWord.toList_ne_nil, isWord.not_endsPrepended]
  cases starts : startsExtending rest with
  | false =>
    rw [splitFrom_separator (by simp) starts, space_not_prepended]
    exact ⟨_, rfl⟩
  | true =>
    rw [splitFrom_joined (.inr starts), space_not_prepended]
    cases parts : rest.toList with
    | nil =>
      simp [startsExtending, parts] at starts
    | cons c cs =>
      have extending : isExtending c = true := by simpa [startsExtending, parts] using starts
      have other : c ≠ ' ' := by
        intro same
        subst same
        rw [ascii_extending ' ' (by decide)] at extending
        cases extending
      obtain ⟨more, later, begun⟩ := @splitFrom_begun _ ' ' cs (isPrepended c)
      have inner : ∀ piece,
          splitFrom ' ' false piece (c :: cs) = splitFrom ' ' (isPrepended c) (piece ++ [c]) cs := by
        intro piece
        rw [splitFrom, if_neg fun all => other all.1]
      rw [inner, inner, begun _ (by simp), begun _ (by simp)]
      exact ⟨_, rfl⟩

end Messages

end ArRobotCode.Swift
