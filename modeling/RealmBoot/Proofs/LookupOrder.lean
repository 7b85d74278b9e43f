import Mathlib.Control.Monad.Basic
import RealmBoot.Proofs.Building
import RealmBoot.Realm.Resolver

/-!
# Resolution Is an Ordered Lookup

A resolver is a nest of realms, and resolving a name walks through the nest: parents before their
children, primary sources before secondary ones. This module shows that, as long as every fallback
realm takes the first definition, nothing of the nest matters but the list of realms it comes down
to (`Resolver.lookups`): the first realm of that list that defines the name decides.

## Main results

* `Realm.exporter?_eq_some_iff`: of several archives that export a name the least defines it, as
  the index is filled in the order in which a realm keeps its archives, and the first one counts.
* `Resolver.toOption_resolve`: what a resolver finds is what the first of its realms finds.
* `Resolver.resolve_eq_ok_iff_first_lookup`: the two put together, for every resolver that can be
  assembled, and down to the builders that sealed its realms and the manifests they read.
-/

namespace RealmBoot

/-- The platform exposes a name given to it, and every name with a beginning given to it. -/
theorem PlatformRealm.exposes_iff {p : PlatformRealm} {name : String} :
    p.exposes name = true ↔
      name ∈ p.names ∨ ∃ start ∈ p.prefixes, start.toList <+: name.toList := by
  simp [exposes, OrderedSet.contains]

namespace Realm

variable {r : Realm} {name : String} {a : Location}

/-- An archive is the least of those in a realm that export a name. -/
def LeastExporter (r : Realm) (a : Location) (name : String) : Prop :=
  r.Exports a name ∧ ∀ b, r.Exports b name → ¬ b < a

/-- The index has nothing under a name exactly if no archive exports the name. -/
theorem exporter?_eq_none_iff : r.exporter? name = none ↔ ∀ a, ¬ r.Exports a name := by
  simp only [exporter?_eq_find?, Option.map_eq_none_iff, List.find?_eq_none, decide_eq_true_eq,
    Exports]
  constructor
  · rintro h a ⟨names, hmem, hname⟩
    exact h (a, names) hmem hname
  · rintro h ⟨a, names⟩ hmem hname
    exact h a ⟨names, hmem, hname⟩

/-- **The least exporter defines a name.** The archives of a realm increase, so the first that
exports the name is the least. -/
theorem exporter?_eq_some_iff : r.exporter? name = some a ↔ r.LeastExporter a name := by
  simp only [exporter?_eq_find?, Option.map_eq_some_iff,
    OrderedSet.find?_eq_some_iff_least r.sorted, decide_eq_true_eq, LeastExporter, Exports]
  constructor
  · rintro ⟨⟨a', names⟩, ⟨⟨hmem, hname⟩, hleast⟩, rfl⟩
    refine ⟨⟨names, hmem, hname⟩, ?_⟩
    rintro b ⟨names', hmem', hname'⟩
    exact hleast (b, names') hmem' hname'
  · rintro ⟨⟨names, hmem, hname⟩, hleast⟩
    refine ⟨(a, names), ⟨⟨hmem, hname⟩, ?_⟩, rfl⟩
    rintro ⟨b, names'⟩ hmem' hname'
    exact hleast b ⟨names', hmem', hname'⟩

end Realm

namespace Resolver

/-! ### One realm alone -/

namespace Lookup

variable {name : String} {d : Definition}

/-- A realm defines a name itself: the platform exposes it, by name or by its beginning, or an
archive of a sealed realm exports it. -/
def Defines (name : String) : Lookup → Prop
  | platform realm => name ∈ realm.names ∨ ∃ start ∈ realm.prefixes, start.toList <+: name.toList
  | sealed realm => ∃ a, realm.Exports a name

/-- What the definition of a name by a realm says: the name asked for, the label of the realm, and
the platform or the least archive that exports the name as origin. -/
def Describes (name : String) (d : Definition) : Lookup → Prop
  | platform realm => d.name = name ∧ d.realm = realm.label ∧ d.origin = .platform
  | sealed realm =>
    d.name = name ∧ d.realm = realm.label ∧
      ∃ a, d.origin = .archive a ∧ realm.LeastExporter a name

/-- A realm gives no definition of what it does not define. -/
theorem define?_eq_none_iff {l : Lookup} : l.define? name = none ↔ ¬ l.Defines name := by
  cases l with
  | platform realm =>
      simp only [define?, Defines, PlatformRealm.define?, ← PlatformRealm.exposes_iff]
      cases realm.exposes name <;> simp
  | sealed realm =>
      simp only [define?, Defines, Realm.define?, Option.map_eq_none_iff, not_exists]
      exact Realm.exporter?_eq_none_iff

/-- A realm gives a definition exactly if it defines the name, and that definition is determined
by the realm. -/
theorem define?_eq_some_iff {l : Lookup} :
    l.define? name = some d ↔ l.Defines name ∧ l.Describes name d := by
  obtain ⟨n, label, origin⟩ := d
  cases l with
  | platform realm =>
      simp only [define?, Defines, Describes, PlatformRealm.define?, ← PlatformRealm.exposes_iff]
      cases realm.exposes name with
      | false => simp
      | true => simp [eq_comm]
  | sealed realm =>
      simp only [define?, Defines, Describes, Realm.define?, Option.map_eq_some_iff,
        Definition.mk.injEq]
      constructor
      · rintro ⟨a, ha, rfl, rfl, rfl⟩
        have hleast := Realm.exporter?_eq_some_iff.mp ha
        exact ⟨⟨a, hleast.1⟩, rfl, rfl, a, rfl, hleast⟩
      · rintro ⟨-, rfl, rfl, a, rfl, hleast⟩
        exact ⟨a, Realm.exporter?_eq_some_iff.mpr hleast, rfl, rfl, rfl⟩

end Lookup

/-! ### The whole nest -/

/-- A resolver that can be made of platform realms, of realms sealed by a builder, and of fallback
realms that take the first definition, bound or not. -/
inductive Assembled : Resolver → Prop
  | platform (realm : PlatformRealm) : Assembled (.platform realm)
  | root {b : RealmBuilder} {fs : FileSystem} {realm : Realm} :
      b.make fs = .ok realm → Assembled (.root realm)
  | child {parent : Resolver} {b : RealmBuilder} {fs : FileSystem} {realm : Realm} :
      Assembled parent → b.make fs = .ok realm → Assembled (.child parent realm)
  | unbound {label : String} {primary : Resolver} :
      Assembled primary → Assembled (.unbound label .firstDefined primary)
  | bound {label : String} {primary secondary : Resolver} :
      Assembled primary → Assembled secondary →
      Assembled (.bound label .firstDefined primary secondary)

/-- What a resolver finds is what the first of its realms that finds anything finds. -/
theorem toOption_resolve {r : Resolver} (h : r.Assembled) (name : String) :
    (r.resolve name).toOption = r.lookups.findSome? (Lookup.define? name) := by
  induction h with
  | platform realm =>
      simp only [resolve, lookups, List.findSome?_singleton, Lookup.define?]
      cases realm.define? name <;> rfl
  | @root _ _ realm _ =>
      simp only [resolve, lookups, List.findSome?_singleton, Lookup.define?]
      cases realm.define? name <;> rfl
  | @child parent _ _ realm _ _ ih =>
      simp only [resolve, lookups, List.findSome?_append, ← ih, List.findSome?_singleton,
        Lookup.define?]
      cases parent.resolve name with
      | ok d => rfl
      | error e => cases realm.define? name <;> rfl
  | unbound _ ih => exact ih
  | @bound _ primary secondary _ _ ih₁ ih₂ =>
      simp only [resolve, lookups, List.findSome?_append, ← ih₁, ← ih₂]
      cases primary.resolve name <;> cases secondary.resolve name <;> rfl

/-- Every sealed realm in the nest was sealed by a builder. -/
theorem Assembled.exists_make {r : Resolver} (h : r.Assembled) {realm : Realm}
    (hmem : .sealed realm ∈ r.lookups) :
    ∃ (b : RealmBuilder) (fs : FileSystem), b.make fs = .ok realm := by
  induction h with
  | platform _ => simp [lookups] at hmem
  | root hsealed =>
      simp only [lookups, List.mem_singleton, Lookup.sealed.injEq] at hmem
      exact hmem ▸ ⟨_, _, hsealed⟩
  | child _ hsealed ih =>
      simp only [lookups, List.mem_append, List.mem_singleton, Lookup.sealed.injEq] at hmem
      rcases hmem with hmem | rfl
      · exact ih hmem
      · exact ⟨_, _, hsealed⟩
  | unbound _ ih => exact ih hmem
  | bound _ _ ih₁ ih₂ =>
      simp only [lookups, List.mem_append] at hmem
      exact hmem.elim ih₁ ih₂

/-- A definition is the outcome of a resolver exactly if it is that of the first realm that has
one. -/
theorem resolve_eq_ok_iff_findSome? {r : Resolver} (h : r.Assembled) (name : String)
    (d : Definition) :
    r.resolve name = .ok d ↔ r.lookups.findSome? (Lookup.define? name) = some d := by
  rw [← toOption_resolve h]
  cases r.resolve name <;> simp [Except.toOption]

/-- **Resolution is an ordered lookup.** A resolver finds a name exactly if some realm of its list
defines the name itself, and what it finds is the definition by the first such realm. Each sealed
realm of the list was sealed by a builder, whose label and archives it has; and whatever builder
sealed it, in whatever files, an archive of it exports exactly the names that the manifest of the
archive listed in those files. -/
theorem resolve_eq_ok_iff_first_lookup {r : Resolver} (h : r.Assembled) (name : String) :
    ((∃ d, r.resolve name = .ok d) ↔ ∃ l ∈ r.lookups, l.Defines name) ∧
      (∀ d, r.resolve name = .ok d ↔
        ∃ before l after, r.lookups = before ++ l :: after ∧ (∀ k ∈ before, ¬ k.Defines name) ∧
          l.Defines name ∧ l.Describes name d) ∧
      ∀ realm, .sealed realm ∈ r.lookups →
        (∃ (b : RealmBuilder) (fs : FileSystem), b.make fs = .ok realm) ∧
        ∀ (b : RealmBuilder) (fs : FileSystem), b.make fs = .ok realm →
          realm.label = b.label ∧ realm.archives = b.archives ∧
            ∀ a exported, realm.Exports a exported ↔
              a ∈ realm.archives ∧ a.ExportsIn fs exported := by
  refine ⟨?_, ?_, ?_⟩
  · simp only [resolve_eq_ok_iff_findSome? h, ← Option.isSome_iff_exists,
      List.isSome_findSome?, List.any_eq_true]
    refine exists_congr fun l => and_congr_right fun _ => ?_
    rw [Option.isSome_iff_ne_none, ne_eq, Lookup.define?_eq_none_iff, not_not]
  · intro d
    rw [resolve_eq_ok_iff_findSome? h, List.findSome?_eq_some_iff]
    simp only [Lookup.define?_eq_some_iff, Lookup.define?_eq_none_iff]
    constructor
    · rintro ⟨before, l, after, hsplit, ⟨hdefines, hdescribes⟩, hbefore⟩
      exact ⟨before, l, after, hsplit, hbefore, hdefines, hdescribes⟩
    · rintro ⟨before, l, after, hsplit, hbefore, hdefines, hdescribes⟩
      exact ⟨before, l, after, hsplit, ⟨hdefines, hdescribes⟩, hbefore⟩
  · intro realm hmem
    refine ⟨h.exists_make hmem, fun b fs hmake => ?_⟩
    obtain ⟨hlabel, -, harchives, hexports⟩ := RealmBuilder.make_spec hmake
    refine ⟨hlabel, harchives, fun a exported => ?_⟩
    rw [harchives]
    exact hexports a exported

/-- Two archives that export one name, the greater of which comes first in the directory. -/
def twinArchives : FileSystem :=
  { root := [
      ("b.jar", .file "Export-Types: x.X, y.Y\n".toUTF8 (.at 0)),
      ("a.jar", .file "Export-Types: x.X\n".toUTF8 (.at 0))] }

/-- The realm sealed from the two archives. -/
def twinRealm : Realm :=
  { label := "twins"
    sources := []
    contents := [(⟨["a.jar"]⟩, ["x.X"]), (⟨["b.jar"]⟩, ["x.X", "y.Y"])]
    sorted := by decide }

/-- Behind a platform that does not expose the name, the lesser of the two archives defines it. -/
theorem resolve_first_lookup_twinRealm :
    ({ label := "twins", archives := .ofList [⟨["b.jar"]⟩, ⟨["a.jar"]⟩] } : RealmBuilder).make
        twinArchives = .ok twinRealm ∧
      (Resolver.bound "both" .firstDefined (.platform .bootstrap) (.root twinRealm)).resolve "x.X" =
        .ok ⟨"x.X", "twins", .archive ⟨["a.jar"]⟩⟩ := by
  have hmake : ({ label := "twins", archives := .ofList [⟨["b.jar"]⟩, ⟨["a.jar"]⟩] } :
      RealmBuilder).make twinArchives = .ok twinRealm := by decide
  have hplatform : ¬ (Lookup.platform .bootstrap).Defines "x.X" :=
    Lookup.define?_eq_none_iff.mp (by decide)
  have hsealed : (Lookup.sealed twinRealm).Defines "x.X" ∧
      (Lookup.sealed twinRealm).Describes "x.X" ⟨"x.X", "twins", .archive ⟨["a.jar"]⟩⟩ :=
    Lookup.define?_eq_some_iff.mp (by decide)
  have hassembled : (Resolver.bound "both" .firstDefined (.platform .bootstrap)
      (.root twinRealm)).Assembled := .bound (.platform .bootstrap) (.root hmake)
  have hfirst := (resolve_eq_ok_iff_first_lookup hassembled "x.X").2.1
  exact ⟨hmake, (hfirst _).mpr ⟨[.platform .bootstrap], .sealed twinRealm, [], rfl,
    by simpa using hplatform, hsealed⟩⟩

end Resolver

end RealmBoot
