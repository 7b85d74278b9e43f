import RealmBoot.Index
import RealmBoot.OrderedSet
import RealmBoot.Realm.Definition

/-!
# Sealed Realms

An immutable set of archives under a label, with the names each archive exports. Of several
archives that export one name the least defines it: the names are entered into an index archive by
archive, and a name that is there already is passed over.
-/

namespace RealmBoot

/-- A labelled set of archives with the names they export. -/
structure Realm where
  /-- The label. -/
  label : String
  /-- The directories the archives were collected from. -/
  sources : List Path
  /-- The archives with the names they export. -/
  contents : List (Location × List String)
  /-- The archives increase strictly. -/
  sorted : (contents.map (·.1)).Pairwise (· < ·) := by simp
deriving DecidableEq

namespace Realm

instance : Inhabited Realm := ⟨{ label := "", sources := [], contents := [] }⟩

/-- The archives of a realm. -/
def archives (r : Realm) : OrderedSet Location := ⟨r.contents.map (·.1), r.sorted⟩

/-- The archives under the names that they export. They are entered one after another, so that a
name stays with the first archive that exports it. -/
def index (r : Realm) : Index Location := Index.enterAll ∅ r.contents

/-- The names the archives of a realm export. -/
def exports (r : Realm) : OrderedSet String := .ofList r.index.keys

/-- Whether an archive belongs to a realm. -/
def contains (r : Realm) (archive : Location) : Bool := r.archives.search archive

/-- The archive that the index has under a name. -/
def exporter? (r : Realm) (name : String) : Option Location := r.index.get? name

/-- The definition of a name by a realm's own archives. -/
def define? (r : Realm) (name : String) : Option Definition :=
  (r.exporter? name).map fun archive => ⟨name, r.label, .archive archive⟩

/-- The index has under a name the first archive that exports the name, and as the archives
increase, the least. -/
theorem exporter?_eq_find? (r : Realm) (name : String) :
    r.exporter? name = (r.contents.find? fun c => name ∈ c.2).map (·.1) := by
  rw [exporter?, index, Index.get?_enterAll, Index.get?_empty, Option.none_or]

end Realm

end RealmBoot
