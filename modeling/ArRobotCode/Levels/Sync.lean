import ArRobotCode.Entities.Decoding
import ArRobotCode.Levels.Mirror

namespace ArRobotCode

open Swift DocumentStore Trapping

def downloaded (documents : List (String × Dictionary)) : List DataLevel :=
  documents.filterMap fun document => DataLevel.decode document.2

namespace LevelsRepository

/-- The completion of the query for all levels; a failed query has no documents. -/
def syncFromServer (querySnapshot : Option (List (String × Dictionary))) : Method LevelsRepository Unit := do
  match querySnapshot with
  | none => return
  | some documents =>
    modify fun r => { r with entities := r.entities ++ downloaded documents }
    onNext

end LevelsRepository

/-- A collection that the writes of clients have made: theirs are the only ones. -/
inductive Written : Collection Json → Prop where
  | empty : Written fun _ => none
  | setData {c : Collection Json} (a : DataLevel) (before : Written c) :
      Written ((Write.setData a.uuid a.asDictionary).apply c)
  | updateData {c : Collection Json} (a : DataLevel) (before : Written c) :
      Written ((Write.updateData a.uuid a.asDictionary).apply c)
  | delete {c : Collection Json} (uuid : String) (before : Written c) : Written ((Write.delete uuid).apply c)

theorem Written.lists_uuid {c : Collection Json} (written : Written c) {id : String} {document : Dictionary}
    (found : c id = some document) : document "UUID" = some (.string id) := by
  induction written generalizing document with
  | empty => cases found
  | @setData c a before ih =>
    by_cases here : id = a.uuid
    · simp only [Write.apply, if_pos here, Option.some.injEq] at found
      rw [← found, here]
      rfl
    · simp only [Write.apply, if_neg here] at found
      exact ih found
  | @updateData c a before ih =>
    by_cases here : id = a.uuid
    · simp only [Write.apply, if_pos here, Option.map_eq_some_iff] at found
      obtain ⟨old, -, rfl⟩ := found
      rw [here]
      exact Fields.updated_listed rfl
    · simp only [Write.apply, if_neg here] at found
      exact ih found
  | @delete c uuid before ih =>
    by_cases here : id = uuid
    · simp [Write.apply, here] at found
    · simp only [Write.apply, if_neg here] at found
      exact ih found

theorem Written.uuid {c : Collection Json} (written : Written c) {id : String} {document : Dictionary} {l : DataLevel}
    (found : c id = some document) (decoded : DataLevel.decode document = some l) : l.uuid = id := by
  have listed := DataLevel.decode_uuid decoded
  rw [written.lists_uuid found] at listed
  cases listed
  rfl

structure Lists (documents : List (String × Dictionary)) (c : Collection Json) : Prop where
  nodup : (documents.map Prod.fst).Nodup
  exact : ∀ id document, (id, document) ∈ documents ↔ c id = some document

def RepositoryCall.added : RepositoryCall → Option DataLevel
  | add a => some a
  | _ => none

def deleted : Write Json → Option String
  | .delete uuid => some uuid
  | _ => none

/-- What the user did before the download came in is kept by it. -/
structure Merged (calls : List RepositoryCall) (db : List (Write Json)) (entities : List DataLevel) : Prop where
  distinct : (entities.map (·.uuid)).Nodup
  kept : ∀ a ∈ calls.filterMap RepositoryCall.added, a.uuid ∉ db.filterMap deleted →
    entities.filter (·.uuid = a.uuid) = [a]
  gone : ∀ l ∈ entities, l.uuid ∉ db.filterMap deleted

def Holds (c : Collection Json) (uuid : String) : Prop :=
  ∃ document l, c uuid = some document ∧ DataLevel.decode document = some l

namespace LevelsRepository

variable {r r' : LevelsRepository} {call : RepositoryCall} {calls : List RepositoryCall}

theorem Effect.accounts (effect : Effect r r' call) (local' : ¬ call.Edits) :
    ∃ removed, (r.entities ++ call.added.toList).Perm (r'.entities ++ removed) ∧
      r'.db.filterMap deleted = r.db.filterMap deleted ++ removed.map (·.uuid) := by
  cases effect with
  | none keeps entities subject db =>
    have nothing : call.added = .none := by
      cases call with
      | add a => exact absurd rfl (keeps a)
      | _ => rfl
    exact ⟨[], by rw [nothing, entities]; exact .refl _, by rw [db, List.map_nil, List.append_nil]⟩
  | added publishes =>
    obtain ⟨entities, -, db⟩ := publishes
    refine ⟨[], ?_, ?_⟩
    · rw [entities, List.append_nil]
      exact .refl _
    · rw [db, List.filterMap_append]
      rfl
  | replaced edits => exact absurd edits local'
  | @removed _ i l deletes found publishes =>
    obtain ⟨entities, -, db⟩ := publishes
    obtain ⟨bound, rfl⟩ := List.getElem?_eq_some_iff.mp found
    have nothing : call.added = .none := by
      cases call with
      | add a => exact absurd deletes id
      | _ => rfl
    refine ⟨[r.entities[i]], ?_, ?_⟩
    · rw [nothing, entities, Option.toList_none, List.append_nil]
      exact ((List.perm_append_singleton _ _).trans (List.getElem_cons_eraseIdx_perm bound)).symm
    · rw [db, List.filterMap_append]
      rfl

theorem run_accounts [CanonicalForm] (local' : ∀ call ∈ calls, ¬ call.Edits)
    (ran : (runAll RepositoryCall.perform calls).run r = .ok () r') :
    ∃ removed, (r.entities ++ calls.filterMap RepositoryCall.added).Perm (r'.entities ++ removed) ∧
      r'.db.filterMap deleted = r.db.filterMap deleted ++ removed.map (·.uuid) := by
  induction calls generalizing r with
  | nil =>
    cases ran
    exact ⟨[], .refl _, (List.append_nil _).symm⟩
  | cons call calls ih =>
    obtain ⟨middle, first, rest⟩ := runAll_cons_ok.mp ran
    obtain ⟨removed, moved, db⟩ := (call_effect first).accounts (local' call List.mem_cons_self)
    obtain ⟨later, moved', db'⟩ := ih (fun other member => local' other (List.mem_cons_of_mem call member)) rest
    refine ⟨removed ++ later, ?_, by rw [db', db, List.map_append, List.append_assoc]⟩
    have split : (call :: calls).filterMap RepositoryCall.added =
        call.added.toList ++ calls.filterMap RepositoryCall.added := by
      cases added : call.added <;> simp [added]
    rw [split, ← List.append_assoc]
    refine (moved.append_right _).trans ?_
    calc
      (middle.entities ++ removed ++ calls.filterMap RepositoryCall.added).Perm
          (middle.entities ++ calls.filterMap RepositoryCall.added ++ removed) := by
        simpa only [List.append_assoc] using List.perm_append_comm.append_left middle.entities
      List.Perm _ (r'.entities ++ later ++ removed) := moved'.append_right removed
      List.Perm _ (r'.entities ++ (removed ++ later)) := by
        simpa only [List.append_assoc] using List.perm_append_comm.append_left r'.entities

end LevelsRepository

section Merging

variable {calls : List RepositoryCall} {db : List (Write Json)} {entities removed : List DataLevel}
  {documents : List (String × Dictionary)} {c : Collection Json}

theorem uuids_downloaded (written : Written c) (lists : Lists documents c) :
    ((downloaded documents).map (·.uuid)).Sublist (documents.map Prod.fst) := by
  have named : ∀ document ∈ documents, ∀ l, DataLevel.decode document.2 = some l → l.uuid = document.1 :=
    fun document member l decoded => written.uuid ((lists.exact _ _).mp member) decoded
  clear lists
  unfold downloaded
  induction documents with
  | nil => exact .slnil
  | cons document documents ih =>
    have rest := ih fun other member => named other (List.mem_cons_of_mem document member)
    cases decoded : DataLevel.decode document.2 with
    | none =>
      simp only [List.filterMap_cons, decoded]
      exact rest.cons _
    | some l =>
      simp only [List.filterMap_cons, decoded, List.map_cons, named document List.mem_cons_self l decoded]
      exact rest.cons_cons _

theorem holds_iff_downloaded (written : Written c) (lists : Lists documents c) (uuid : String) :
    Holds c uuid ↔ ∃ l ∈ downloaded documents, l.uuid = uuid := by
  simp only [downloaded, List.mem_filterMap]
  constructor
  · intro holds
    obtain ⟨document, l, found, decoded⟩ := holds
    exact ⟨l, ⟨(uuid, document), (lists.exact _ _).mpr found, decoded⟩, written.uuid found decoded⟩
  · intro held
    obtain ⟨l, ⟨⟨id, document⟩, member, decoded⟩, rfl⟩ := held
    have found := (lists.exact _ _).mp member
    have same := written.uuid found decoded
    subst same
    exact ⟨document, l, found, decoded⟩

theorem filter_uuid {a : DataLevel} (distinct : (entities.map (·.uuid)).Nodup) (member : a ∈ entities) :
    entities.filter (·.uuid = a.uuid) = [a] := by
  induction entities with
  | nil => cases member
  | cons l entities ih =>
    rw [List.map_cons, List.nodup_cons] at distinct
    rcases List.mem_cons.mp member with rfl | later
    · have others : entities.filter (·.uuid = a.uuid) = [] := by
        rw [List.filter_eq_nil_iff]
        intro l listed same
        exact distinct.1 (List.mem_map.mpr ⟨l, listed, of_decide_eq_true same⟩)
      simp [others]
    · have different : l.uuid ≠ a.uuid := fun same => distinct.1 (List.mem_map.mpr ⟨a, later, same.symm⟩)
      simp [different, ih distinct.2 later]

theorem merged_of_clear (own : ((calls.filterMap RepositoryCall.added).map (·.uuid)).Nodup)
    (moved : (calls.filterMap RepositoryCall.added).Perm (entities ++ removed))
    (deletions : db.filterMap deleted = removed.map (·.uuid)) (loaded : List DataLevel)
    (distinct : (loaded.map (·.uuid)).Nodup)
    (clear' : ∀ a ∈ calls.filterMap RepositoryCall.added, ∀ l ∈ loaded, l.uuid ≠ a.uuid) :
    Merged calls db (entities ++ loaded) := by
  have apart : ((entities ++ removed).map (·.uuid)).Nodup := (moved.map _).nodup_iff.mp own
  rw [List.map_append, List.nodup_append] at apart
  obtain ⟨listed, -, disjoint⟩ := apart
  refine ⟨?_, ?_, ?_⟩
  · rw [List.map_append, List.nodup_append]
    refine ⟨listed, distinct, ?_⟩
    intro id here other there same
    obtain ⟨a, member, rfl⟩ := List.mem_map.mp here
    obtain ⟨l, member', rfl⟩ := List.mem_map.mp there
    exact clear' a (moved.mem_iff.mpr (List.mem_append_left _ member)) l member' same.symm
  · intro a added stays
    have member : a ∈ entities := by
      rcases List.mem_append.mp (moved.mem_iff.mp added) with member | gone
      · exact member
      · exact absurd (deletions ▸ List.mem_map_of_mem gone) stays
    have others : loaded.filter (·.uuid = a.uuid) = [] := by
      rw [List.filter_eq_nil_iff]
      intro l member' same
      exact clear' a added l member' (of_decide_eq_true same)
    rw [List.filter_append, filter_uuid listed member, others]
    rfl
  · intro l member gone
    rw [deletions] at gone
    rcases List.mem_append.mp member with here | there
    · exact disjoint _ (List.mem_map_of_mem here) _ gone rfl
    · obtain ⟨a, member', same⟩ := List.mem_map.mp gone
      exact clear' a (moved.mem_iff.mpr (List.mem_append_right _ member')) l there same.symm

theorem clear_of_merged (moved : (calls.filterMap RepositoryCall.added).Perm (entities ++ removed))
    (deletions : db.filterMap deleted = removed.map (·.uuid)) {loaded : List DataLevel}
    (merged : Merged calls db (entities ++ loaded)) :
    ∀ a ∈ calls.filterMap RepositoryCall.added, ∀ l ∈ loaded, l.uuid ≠ a.uuid := by
  intro a added l member same
  rcases List.mem_append.mp (moved.mem_iff.mp added) with here | gone
  · have distinct := merged.distinct
    rw [List.map_append, List.nodup_append] at distinct
    exact distinct.2.2 _ (List.mem_map_of_mem here) _ (List.mem_map_of_mem member) same.symm
  · refine merged.gone l (List.mem_append_right _ member) ?_
    rw [deletions, same]
    exact List.mem_map_of_mem gone

end Merging

namespace LevelsRepository

theorem sync_merges_iff [CanonicalForm] {r r' : LevelsRepository} {calls : List RepositoryCall}
    {c : Collection Json} {querySnapshot : Option (List (String × Dictionary))} (launched : r.entities = [] ∧ r.db = [])
    (user : ∀ call ∈ calls, ¬ call.Edits) (own : ((calls.filterMap RepositoryCall.added).map (·.uuid)).Nodup)
    (ran : (runAll RepositoryCall.perform calls).run r = .ok () r') (written : Written c)
    (queried : ∀ documents, querySnapshot = some documents → Lists documents c) :
    ∃ r'', (syncFromServer querySnapshot).run r' = .ok () r'' ∧
      (Merged calls r'.db r''.entities ↔
        querySnapshot = none ∨ ∀ a ∈ calls.filterMap RepositoryCall.added, ¬ Holds c a.uuid) := by
  obtain ⟨removed, moved, deletions⟩ := run_accounts user ran
  rw [launched.1, List.nil_append] at moved
  rw [launched.2, List.filterMap_nil, List.nil_append] at deletions
  cases querySnapshot with
  | none =>
    have merged := merged_of_clear own moved deletions [] List.nodup_nil (by simp)
    rw [List.append_nil] at merged
    exact ⟨r', rfl, iff_of_true merged (.inl rfl)⟩
  | some documents =>
    have lists := queried documents rfl
    refine ⟨_, rfl, ?_⟩
    simp only [reduceCtorEq, false_or]
    have distinct := lists.nodup.sublist (uuids_downloaded written lists)
    constructor
    · intro merged a added holds
      obtain ⟨l, member, same⟩ := (holds_iff_downloaded written lists a.uuid).mp holds
      exact clear_of_merged moved deletions merged a added l member same
    · intro clear'
      refine merged_of_clear own moved deletions _ distinct fun a added l member same => ?_
      exact clear' a added ((holds_iff_downloaded written lists a.uuid).mpr ⟨l, member, same⟩)

theorem lists_single (a : DataLevel) :
    Lists [(a.uuid, a.asDictionary)] ((Write.setData a.uuid a.asDictionary).apply fun _ => none) where
  nodup := List.nodup_singleton _
  exact id document := by
    by_cases here : id = a.uuid
    · simp [Write.apply, here, eq_comm]
    · simp [Write.apply, here]

local instance downloadedTexts : CanonicalForm := .composed

theorem sync_merges_other_level :
    ∃ r'', (syncFromServer (some [("2", (DataLevel.new5x5 "2" "Theirs" "you").asDictionary)])).run
        (final (runAll RepositoryCall.perform [.add (.new5x5 "1" "Mine" "me")]) {}) = .ok () r'' ∧
      (Merged [.add (.new5x5 "1" "Mine" "me")]
          (final (runAll RepositoryCall.perform [.add (.new5x5 "1" "Mine" "me")]) {}).db r''.entities ↔
        some [("2", (DataLevel.new5x5 "2" "Theirs" "you").asDictionary)] = none ∨
          ∀ a ∈ [RepositoryCall.add (.new5x5 "1" "Mine" "me")].filterMap RepositoryCall.added,
            ¬ Holds ((Write.setData "2" (DataLevel.new5x5 "2" "Theirs" "you").asDictionary).apply fun _ => none)
              a.uuid) := by
  refine sync_merges_iff ⟨rfl, rfl⟩ (by simp [RepositoryCall.Edits]) (by decide)
    (run_eq_of_trapOf_eq_none (by decide +kernel)) (.setData (.new5x5 "2" "Theirs" "you") .empty) ?_
  rintro _ ⟨⟩
  exact lists_single (.new5x5 "2" "Theirs" "you")

/-- The download meets the level whose addition has reached the server before it. -/
theorem added_level_downloaded_again :
    ∃ r' r'' c documents, (runAll RepositoryCall.perform [.add (.new5x5 "1" "Mine" "me")]).run {} = .ok () r' ∧
      c = Collection.after (fun _ => none) r'.db ∧ Written c ∧ Lists documents c ∧
      (syncFromServer (some documents)).run r' = .ok () r'' ∧
      r''.entities = [.new5x5 "1" "Mine" "me", .new5x5 "1" "Mine" "me"] ∧
      ¬ Merged [.add (.new5x5 "1" "Mine" "me")] r'.db r''.entities := by
  refine ⟨_, _, _, [("1", (DataLevel.new5x5 "1" "Mine" "me").asDictionary)], rfl, rfl,
    .setData (.new5x5 "1" "Mine" "me") .empty, lists_single (.new5x5 "1" "Mine" "me"), rfl, ?_, ?_⟩
  · decide +kernel
  · intro merged
    have distinct := merged.distinct
    revert distinct
    decide +kernel

end LevelsRepository

end ArRobotCode
