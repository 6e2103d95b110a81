import Mathlib.Init

namespace DocumentStore

variable {V : Type}

abbrev Fields (V : Type) := String → Option V

def Fields.ofList (entries : List (String × V)) : Fields V := fun key => entries.lookup key

/-- The document after the listed fields are replaced: the others stay. -/
def Fields.updated (document fields : Fields V) : Fields V := fun key => (fields key).or (document key)

theorem Fields.updated_listed {document fields : Fields V} {key : String} {value : V}
    (listed : fields key = some value) : document.updated fields key = some value := by
  simp [Fields.updated, listed]

theorem Fields.updated_unlisted {document fields : Fields V} {key : String} (absent : fields key = none) :
    document.updated fields key = document key := by
  simp [Fields.updated, absent]

abbrev Collection (V : Type) := String → Option (Fields V)

inductive Write (V : Type) where
  | setData (document : String) (fields : Fields V)
  | updateData (document : String) (fields : Fields V)
  | delete (document : String)

namespace Write

def target : Write V → String
  | setData document _ | updateData document _ | delete document => document

/-- An update of a missing document fails and leaves the collection as it is. -/
def apply (c : Collection V) : Write V → Collection V
  | setData document fields => fun id => if id = document then some fields else c id
  | updateData document fields => fun id => if id = document then (c id).map (·.updated fields) else c id
  | delete document => fun id => if id = document then none else c id

theorem apply_other (c : Collection V) (w : Write V) {id : String} (other : id ≠ w.target) :
    w.apply c id = c id := by
  cases w <;> simp_all [apply, target]

end Write

def Collection.after (c : Collection V) (writes : List (Write V)) : Collection V :=
  writes.foldl (fun c w => w.apply c) c

@[simp] theorem Collection.after_nil (c : Collection V) : c.after [] = c := rfl

@[simp] theorem Collection.after_cons (c : Collection V) (w : Write V) (writes : List (Write V)) :
    c.after (w :: writes) = (w.apply c).after writes := rfl

theorem Collection.after_append (c : Collection V) (writes later : List (Write V)) :
    c.after (writes ++ later) = (c.after writes).after later := List.foldl_append

end DocumentStore
