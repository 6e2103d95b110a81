import ArRobotCode.Server.Requests
import ArRobotCode.API.Response

namespace ArRobotCode.Server

open DocumentStore

abbrev Cluster := String → Option Bucket

inductive Panic where
  | nilPointer
deriving DecidableEq, Repr

/-- The opened bucket is kept by its name; it is none where the pointer is nil. -/
structure CouchBaseRepository where
  levelsBucket : Option String
deriving DecidableEq, Repr

structure QueryRow where
  keyspace : String
  document : Level
deriving DecidableEq, Repr

/-- The rows that `Next` gives out, and the error that `Close` would return after them. -/
structure QueryResults where
  rows : List QueryRow
  failure : Option String := none
deriving DecidableEq, Repr

inductive QueryOutcome where
  | refused (err : String)
  | answered (results : QueryResults)
deriving DecidableEq, Repr

def QueryOutcome.returned : QueryOutcome → Option QueryResults × Option String
  | refused err => (none, some err)
  | answered results => (some results, none)

def Cluster.openBucket (c : Cluster) (bucketName : String) : Option String := (c bucketName).map fun _ => bucketName

/-- The error of `OpenBucket` is dropped. -/
def couchBaseRepositoryBuilder (c : Cluster) (levelsBucketName : String) : CouchBaseRepository :=
  { levelsBucket := c.openBucket levelsBucketName }

namespace CouchBaseRepository

def write (gocb : Gocb) (repo : CouchBaseRepository) (c : Cluster) (request : Request) : Except Panic Cluster :=
  match repo.levelsBucket with
  | none => .error .nilPointer
  | some name => .ok (Function.update c name ((c name).map fun b => (request.program.run gocb.serve b).2))

def writeAll (gocb : Gocb) (repo : CouchBaseRepository) : List Request → Cluster → Except Panic Cluster
  | [], c => .ok c
  | request :: requests, c => (repo.write gocb c request).bind (repo.writeAll gocb requests)

/-- The loop over `rows.Next(&row)`, which decodes each object into the map of the row before. -/
def appendRows (row : Fields Level) (levels : Slice Level) : List QueryRow → Slice Level
  | [] => levels
  | next :: rows =>
    let row := Function.update row next.keyspace (some next.document)
    appendRows row (levels.append ((row "levels").getD {})) rows

def getLevelsByQuery (repo : CouchBaseRepository) (executeN1qlQuery : String → QueryOutcome) :
    Except Panic (Slice Level × Option String) :=
  if repo.levelsBucket = none then .error .nilPointer
  else
    let (rows, err) := (executeN1qlQuery "SELECT * FROM levels").returned
    match rows with
    -- The nil rows of a refused query are used before its error is looked at.
    | none => .error .nilPointer
    | some results =>
      let levels := appendRows (fun _ => none) none results.rows
      match err with
      | some err => .ok (some [], some s!"Couldn't get all the levels: {err}\n")
      | none => .ok (levels, none)

end CouchBaseRepository

def Bucket.stored (b : Bucket) : Multiset Level := b.entries.map (·.2)

def keyspaceOf (statement : String) : Option String :=
  if "SELECT * FROM ".toList.isPrefixOf statement.toList then
    some (String.ofList (statement.toList.drop "SELECT * FROM ".length))
  else none

/-- The query service may refuse a statement. Otherwise it gives out the documents of the keyspace in some order, all of
    them unless it fails on the way. -/
inductive Cluster.Answers (c : Cluster) (statement : String) : QueryOutcome → Prop where
  | refused (err : String) : c.Answers statement (.refused err)
  | answered {keyspace : String} {b : Bucket} {delivered missing : List Level} {failure : Option String}
      (selects : keyspaceOf statement = some keyspace) (found : c keyspace = some b)
      (stored : (↑(delivered ++ missing) : Multiset Level) = b.stored) (complete : failure = none → missing = []) :
      c.Answers statement (.answered { rows := delivered.map (QueryRow.mk keyspace), failure })

/-- No panic, and an error or exactly the levels of the bucket. -/
def Cluster.Reports (c : Cluster) (bucketName : String) (result : Except Panic (Slice Level × Option String)) : Prop :=
  ∃ levels err, result = .ok (levels, err) ∧
    (err ≠ none ∨ ∃ b, c bucketName = some b ∧ (↑(levels.getD []) : Multiset Level) = b.stored)

/-- The bucket was opened and the query answered; every document of a bucket `levels` came before the end or the
    failure, and in place of another bucket's came the same levels from `levels`. -/
def Cluster.Delivers (c : Cluster) (bucketName : String) (outcome : QueryOutcome) : Prop :=
  ∃ b results, c bucketName = some b ∧ outcome = .answered results ∧
    if bucketName = "levels" then results.rows.length = Multiset.card b.stored
    else (↑(results.rows.map (·.document)) : Multiset Level) = b.stored

namespace CouchBaseRepository

variable {gocb : Gocb} {repo : CouchBaseRepository} {c c' : Cluster}

theorem write_keeps (request : Request) (wrote : repo.write gocb c request = .ok c') (name : String) :
    (c' name).isSome = (c name).isSome := by
  unfold write at wrote
  cases bucket : repo.levelsBucket with
  | none =>
    rw [bucket] at wrote
    cases wrote
  | some own =>
    rw [bucket] at wrote
    cases wrote
    by_cases same : name = own
    · rw [same, Function.update_self, Option.isSome_map]
    · rw [Function.update_of_ne same]

theorem writeAll_keeps {requests : List Request} (wrote : repo.writeAll gocb requests c = .ok c') (name : String) :
    (c' name).isSome = (c name).isSome := by
  induction requests generalizing c with
  | nil =>
    cases wrote
    rfl
  | cons request requests ih =>
    unfold writeAll at wrote
    cases first : repo.write gocb c request with
    | error panic =>
      rw [first] at wrote
      cases wrote
    | ok middle =>
      rw [first] at wrote
      exact (ih wrote).trans (write_keeps request first name)

theorem appendRows_eq {rows : List QueryRow} (named : ∀ r ∈ rows, r.keyspace = "levels") (row : Fields Level)
    (levels : Slice Level) : appendRows row levels rows = (rows.map (·.document)).foldl Slice.append levels := by
  induction rows generalizing row levels with
  | nil => rfl
  | cons r rows ih =>
    have here := named r List.mem_cons_self
    have rest := ih fun other member => named other (List.mem_cons_of_mem r member)
    simp only [appendRows, here, Function.update_self, Option.getD_some, List.map_cons, List.foldl_cons]
    exact rest _ _

theorem getD_appendRows {rows : List QueryRow} (named : ∀ r ∈ rows, r.keyspace = "levels") :
    (appendRows (fun _ => none) none rows).getD [] = rows.map (·.document) := by
  rw [appendRows_eq named, Slice.foldl_append]
  split_ifs with empty
  · rw [empty]
    rfl
  · simp

theorem getLevelsByQuery_answered {execute : String → QueryOutcome} {results : QueryResults}
    (opened : repo.levelsBucket ≠ none) (answered : execute "SELECT * FROM levels" = .answered results) :
    repo.getLevelsByQuery execute = .ok (appendRows (fun _ => none) none results.rows, none) := by
  simp [getLevelsByQuery, opened, answered, QueryOutcome.returned]

theorem getLevelsByQuery_refused {execute : String → QueryOutcome} {err : String}
    (refused : execute "SELECT * FROM levels" = .refused err) :
    repo.getLevelsByQuery execute = .error .nilPointer := by
  simp [getLevelsByQuery, refused, QueryOutcome.returned]

theorem getLevelsByQuery_closed (closed : repo.levelsBucket = none) (execute : String → QueryOutcome) :
    repo.getLevelsByQuery execute = .error .nilPointer := if_pos closed

end CouchBaseRepository

theorem keyspaceOf_levels : keyspaceOf "SELECT * FROM levels" = some "levels" := by decide

theorem builder_closed_iff (c : Cluster) (bucketName : String) :
    (couchBaseRepositoryBuilder c bucketName).levelsBucket = none ↔ c bucketName = none := by
  simp [couchBaseRepositoryBuilder, Cluster.openBucket]

theorem Cluster.delivers_answered_iff {c : Cluster} {bucketName : String} {b : Bucket} (own : c bucketName = some b)
    (results : QueryResults) : c.Delivers bucketName (.answered results) ↔
      if bucketName = "levels" then results.rows.length = Multiset.card b.stored
      else (↑(results.rows.map (·.document)) : Multiset Level) = b.stored := by
  constructor
  · intro delivers
    obtain ⟨_, _, found, answered, came⟩ := delivers
    rw [own] at found
    cases found
    cases answered
    exact came
  · intro came
    exact ⟨b, results, own, rfl, came⟩

theorem documents_of_keyspace (keyspace : String) (delivered : List Level) :
    (delivered.map (QueryRow.mk keyspace)).map (·.document) = delivered := by
  rw [List.map_map]
  exact List.map_id delivered

theorem delivered_complete_iff {delivered missing : List Level} {b : Bucket}
    (stored : (↑(delivered ++ missing) : Multiset Level) = b.stored) :
    (↑delivered : Multiset Level) = b.stored ↔ delivered.length = Multiset.card b.stored := by
  constructor
  · intro all
    rw [← all, Multiset.coe_card]
  · intro count
    rw [← stored, Multiset.coe_card, List.length_append] at count
    have none : missing = [] := List.eq_nil_of_length_eq_zero (by omega)
    rw [← stored, none, List.append_nil]

theorem reports_answered_iff {c : Cluster} {repo : CouchBaseRepository} {execute : String → QueryOutcome}
    {results : QueryResults} (bucketName : String) (opened : repo.levelsBucket ≠ none)
    (answered : execute "SELECT * FROM levels" = .answered results)
    (named : ∀ r ∈ results.rows, r.keyspace = "levels") :
    c.Reports bucketName (repo.getLevelsByQuery execute) ↔
      ∃ b, c bucketName = some b ∧ (↑(results.rows.map (·.document)) : Multiset Level) = b.stored := by
  rw [CouchBaseRepository.getLevelsByQuery_answered opened answered, ← CouchBaseRepository.getD_appendRows named]
  constructor
  · intro reports
    obtain ⟨levels, err, returned, failed | stored⟩ := reports
    · cases returned
      exact absurd rfl failed
    · cases returned
      exact stored
  · intro stored
    exact ⟨_, none, rfl, .inr stored⟩

theorem Cluster.Answers.levels {c : Cluster} {results : QueryResults}
    (answers : c.Answers "SELECT * FROM levels" (.answered results)) :
    ∃ (b : Bucket) (delivered missing : List Level), c "levels" = some b ∧
      results.rows = delivered.map (QueryRow.mk "levels") ∧
      (↑(delivered ++ missing) : Multiset Level) = b.stored := by
  cases answers with
  | @answered keyspace b delivered missing failure selects found stored complete =>
    rw [keyspaceOf_levels] at selects
    cases selects
    exact ⟨b, delivered, missing, found, rfl, stored⟩

theorem reports_own_iff {c : Cluster} {repo : CouchBaseRepository} {execute : String → QueryOutcome}
    {results : QueryResults} {bucketName : String} (opened : repo.levelsBucket ≠ none)
    (answered : execute "SELECT * FROM levels" = .answered results)
    (answers : c.Answers "SELECT * FROM levels" (.answered results)) {own : Bucket} (found : c bucketName = some own) :
    c.Reports bucketName (repo.getLevelsByQuery execute) ↔ c.Delivers bucketName (.answered results) := by
  obtain ⟨b, delivered, missing, levels, rows, stored⟩ := answers.levels
  have named : ∀ r ∈ results.rows, r.keyspace = "levels" := by simp [rows]
  rw [reports_answered_iff bucketName opened answered named, Cluster.delivers_answered_iff found]
  simp only [found, Option.some.injEq, exists_eq_left', rows, documents_of_keyspace, List.length_map]
  by_cases same : bucketName = "levels"
  · rw [same, levels] at found
    cases found
    rw [if_pos same]
    exact delivered_complete_iff stored
  · rw [if_neg same]

/-- The levels of the repository's own bucket come back if and only if it could be opened, the query is answered, and
    the bucket `levels`, which is the one that is asked, gives out just these. -/
theorem get_levels_reports_iff {gocb : Gocb} {c₀ c : Cluster} {bucketName : String} {requests : List Request}
    {execute : String → QueryOutcome}
    (wrote : (couchBaseRepositoryBuilder c₀ bucketName).writeAll gocb requests c₀ = .ok c)
    (answers : ∀ statement, c.Answers statement (execute statement)) :
    c.Reports bucketName ((couchBaseRepositoryBuilder c₀ bucketName).getLevelsByQuery execute) ↔
      c.Delivers bucketName (execute "SELECT * FROM levels") := by
  have kept := CouchBaseRepository.writeAll_keeps wrote bucketName
  have answer := answers "SELECT * FROM levels"
  cases outcome : execute "SELECT * FROM levels" with
  | refused err =>
    rw [CouchBaseRepository.getLevelsByQuery_refused outcome]
    simp [Cluster.Reports, Cluster.Delivers]
  | answered results =>
    rw [outcome] at answer
    cases own : c bucketName with
    | none =>
      rw [own, Option.isSome_none, eq_comm, Option.isSome_eq_false_iff, Option.isNone_iff_eq_none] at kept
      rw [CouchBaseRepository.getLevelsByQuery_closed ((builder_closed_iff c₀ bucketName).mpr kept)]
      simp [Cluster.Reports, Cluster.Delivers, own]
    | some b =>
      apply reports_own_iff _ outcome answer own
      rw [Ne, builder_closed_iff, ← Ne, ← Option.isSome_iff_ne_none, ← kept, own]
      rfl

def newCluster : Cluster := fun name => if name = "levels" then some ∅ else none

def loopsOnly : Cluster := Function.update newCluster "levels" (some (Finmap.insert "Loops" { name := "Loops" } ∅))

def allLoops (statement : String) : QueryOutcome :=
  if statement = "SELECT * FROM levels" then .answered { rows := [⟨"levels", { name := "Loops" }⟩] }
  else .refused "syntax error"

theorem loopsOnly_written : (couchBaseRepositoryBuilder newCluster "levels").writeAll .plain
    [.addLevel { name := "Loops" }] newCluster = .ok loopsOnly := by
  have opened : newCluster "levels" = some ∅ := if_pos rfl
  simp [CouchBaseRepository.writeAll, CouchBaseRepository.write, couchBaseRepositoryBuilder, Cluster.openBucket,
    opened, Request.program, CouchBaseRepository.addLevel_eq, CouchBaseRepository.insertLevel, Gocb.serve,
    Except.bind, loopsOnly]
  rw [if_neg Finmap.notMem_empty]

theorem loopsOnly_stored : loopsOnly "levels" = some (Finmap.insert "Loops" { name := "Loops" } ∅) ∧
    Bucket.stored (Finmap.insert "Loops" { name := "Loops" } ∅) = {{ name := "Loops" }} := by
  constructor
  · exact Function.update_self ..
  · rw [Bucket.stored, Finmap.entries_insert_of_notMem (Finmap.notMem_empty)]
    rfl

theorem allLoops_answers (statement : String) : loopsOnly.Answers statement (allLoops statement) := by
  unfold allLoops
  split_ifs with select
  · rw [select]
    exact @Cluster.Answers.answered _ _ "levels" _ [{ name := "Loops" }] [] none keyspaceOf_levels loopsOnly_stored.1
      loopsOnly_stored.2.symm fun _ => rfl
  · exact .refused _

theorem get_levels_reports_loops :
    loopsOnly.Reports "levels" ((couchBaseRepositoryBuilder newCluster "levels").getLevelsByQuery allLoops) := by
  apply (get_levels_reports_iff loopsOnly_written allLoops_answers).mpr
  refine ⟨_, _, loopsOnly_stored.1, rfl, ?_⟩
  rw [if_pos rfl, loopsOnly_stored.2]
  rfl

/-- Before the first level is added there may be no index, and the query is refused. -/
theorem refused_query_panics : ¬ ∀ (gocb : Gocb) (c₀ c : Cluster) (bucketName : String) (requests : List Request)
    (execute : String → QueryOutcome),
    (couchBaseRepositoryBuilder c₀ bucketName).writeAll gocb requests c₀ = .ok c →
      (∀ statement, c.Answers statement (execute statement)) →
        c.Reports bucketName ((couchBaseRepositoryBuilder c₀ bucketName).getLevelsByQuery execute) := by
  intro reports
  obtain ⟨levels, err, returned, _⟩ := reports .plain newCluster newCluster "levels" []
    (fun _ => .refused "no index available") rfl fun _ => .refused _
  cases returned

end ArRobotCode.Server
