import Mathlib.Data.List.Basic
import Mathlib.Tactic.ByContra
import RealmBoot.Config.Runner
import RealmBoot.Realm.Policy

/-!
# What Validation Lets Through

Validation tells warnings from fatal problems by how their texts begin, and policies that exist from
others by a list of its own. This module shows that the texts say what they should: of all problems
that validation can find, those of the host directory are the warnings. It also shows that the
policies of the list are those that can be read.

## Main results

* `RunnerConfig.isWarning_iff_of_mem`: which problems of a configuration are warnings.
* `LayoutConfig.mem_fallbackPolicies_iff`: the policies that are listed are those that are read.
* `RunnerConfig.exists_policy`, `RunnerConfig.ne_empty_of_mem`: what a configuration without fatal
  problems has, and what it does not have.
-/

namespace RealmBoot

/-! ### Texts of problems -/

namespace ConfigProblem

variable {p : ConfigProblem} {s t : String} {c : Char}

/-- A text begins as what stands in front in it does. -/
theorem head?_append (h : s.toList.head? = some c) : (s ++ t).toList.head? = some c := by
  rw [String.toList_append, List.head?_append, h, Option.some_or]

/-- A problem whose text begins with another letter is no warning. -/
theorem isWarning_of_head? (h : p.message.toList.head? = some c) (hc : c ≠ 'W') :
    p.isWarning = false := by
  by_contra hwarning
  rw [Bool.not_eq_false, isWarning, List.isPrefixOf_iff_prefix] at hwarning
  obtain ⟨rest, hrest⟩ := hwarning
  rw [← hrest] at h
  exact hc (Option.some.inj h).symm

/-- A host directory that is not there is worth a warning. -/
theorem isWarning_missingHostDir (dir : Path) : (missingHostDir dir).isWarning = true := by
  have hlead : "Warning:".toList <+: "Warning: layout.host_dir ".toList :=
    ⟨" layout.host_dir ".toList, rfl⟩
  have hmessage : (missingHostDir dir).message.toList =
      "Warning: layout.host_dir ".toList ++ (dir.quoted.toList ++ " does not exist".toList) := by
    rw [← List.append_assoc, ← String.toList_append, ← String.toList_append]
    exact rfl
  rw [isWarning, hmessage, List.isPrefixOf_iff_prefix]
  exact List.prefix_append_of_prefix hlead

end ConfigProblem

/-! ### The problems of a layout -/

namespace LayoutConfig

variable {problem : ConfigProblem} {field value given : String} {list known : List String}

/-- What is wrong with a list of extensions is no warning. -/
theorem isWarning_of_mem_extensionProblems (h : problem ∈ extensionProblems field list)
    (hfield : field.toList.head? = some 'l') : problem.isWarning = false := by
  simp only [extensionProblems, List.mem_append, List.mem_map] at h
  rcases h with h | ⟨e, -, rfl⟩
  · split at h
    · obtain rfl := List.mem_singleton.mp h
      exact ConfigProblem.isWarning_of_head? (ConfigProblem.head?_append hfield) (by decide)
    · cases h
  · refine ConfigProblem.isWarning_of_head? (c := 'I') ?_ (by decide)
    iterate 4 refine ConfigProblem.head?_append ?_
    decide

/-- That a path is blank is no warning. -/
theorem isWarning_of_mem_blankProblems (h : problem ∈ blankProblems field value)
    (hfield : field.toList.head? = some 'l') : problem.isWarning = false := by
  rw [blankProblems] at h
  split at h
  · obtain rfl := List.mem_singleton.mp h
    exact ConfigProblem.isWarning_of_head? (ConfigProblem.head?_append hfield) (by decide)
  · cases h

/-- That a policy does not exist is no warning. -/
theorem isWarning_fallbackPolicy :
    (ConfigProblem.fallbackPolicy given known).isWarning = false := by
  refine ConfigProblem.isWarning_of_head? (c := 'I') ?_ (by decide)
  iterate 3 refine ConfigProblem.head?_append ?_
  decide

/-- **The two lists of policies agree:** the texts that validation lets through are those that can
be read as a policy. -/
theorem mem_fallbackPolicies_iff {s : String} :
    s ∈ fallbackPolicies ↔ ∃ policy, FallbackPolicy.ofText? s = some policy := by
  constructor
  · intro h
    simp only [fallbackPolicies, List.mem_cons, List.not_mem_nil, or_false] at h
    rcases h with rfl | rfl
    · exact ⟨.firstDefined, FallbackPolicy.ofText?_text .firstDefined⟩
    · exact ⟨.unanimous, FallbackPolicy.ofText?_text .unanimous⟩
  · rintro ⟨policy, h⟩
    obtain rfl : policy.text = s := by simpa using List.find?_some h
    cases policy <;> decide

end LayoutConfig

/-! ### The problems of a configuration -/

namespace RunnerConfig

variable {c : RunnerConfig} {fs : FileSystem} {problem : ConfigProblem}

/-- What is wrong with the log settings is no warning. -/
theorem isWarning_of_mem_logProblems {o : ObservabilityConfig} (h : problem ∈ logProblems o) :
    problem.isWarning = false := by
  simp only [logProblems, List.mem_append] at h
  rcases h with (h | h) | h <;> split at h
  · cases h
  · obtain rfl := List.mem_singleton.mp h
    exact ConfigProblem.isWarning_of_head? (c := 'I')
      (ConfigProblem.head?_append (ConfigProblem.head?_append (by decide))) (by decide)
  · cases h
  · obtain rfl := List.mem_singleton.mp h
    exact ConfigProblem.isWarning_of_head? (c := 'I')
      (ConfigProblem.head?_append (ConfigProblem.head?_append (by decide))) (by decide)
  · obtain rfl := List.mem_singleton.mp h
    exact ConfigProblem.isWarning_of_head? (c := 'o') (by decide) (by decide)
  · cases h

/-- A problem that validation finds is fatal, or it is about the host directory. -/
theorem isWarning_or_of_mem (h : problem ∈ c.problems fs) :
    problem.isWarning = false ∨ problem = .noHostDir ∨ ∃ dir, problem = .missingHostDir dir := by
  simp only [problems, LayoutConfig.problems, List.mem_append] at h
  rcases h with
    hlog | (((((hmodules | hextensions) | hpolicy) | hlib) | hlauncher) | hpayload) | hhost
  · exact .inl (isWarning_of_mem_logProblems hlog)
  · exact .inl (LayoutConfig.isWarning_of_mem_extensionProblems hmodules (by decide))
  · exact .inl (LayoutConfig.isWarning_of_mem_extensionProblems hextensions (by decide))
  · split at hpolicy
    · cases hpolicy
    · exact .inl (List.mem_singleton.mp hpolicy ▸ LayoutConfig.isWarning_fallbackPolicy)
  · exact .inl (LayoutConfig.isWarning_of_mem_blankProblems hlib (by decide))
  · exact .inl (LayoutConfig.isWarning_of_mem_blankProblems hlauncher (by decide))
  · exact .inl (LayoutConfig.isWarning_of_mem_blankProblems hpayload (by decide))
  · split at hhost
    · exact .inr (.inl (List.mem_singleton.mp hhost))
    · split at hhost
      · cases hhost
      · exact .inr (.inr ⟨_, List.mem_singleton.mp hhost⟩)

/-- **The warnings of a validation are the problems of the host directory:** it is not set, or it is
not there. -/
theorem isWarning_iff_of_mem (h : problem ∈ c.problems fs) :
    problem.isWarning = true ↔ problem = .noHostDir ∨ ∃ dir, problem = .missingHostDir dir := by
  constructor
  · intro hwarning
    exact (isWarning_or_of_mem h).resolve_left (by simp [hwarning])
  · rintro (rfl | ⟨dir, rfl⟩)
    · rfl
    · exact ConfigProblem.isWarning_missingHostDir dir

/-- Without fatal problems, nothing is wrong but that there is no host directory. -/
theorem eq_of_mem_problems (h : c.fatalProblems fs = []) (hproblem : problem ∈ c.problems fs) :
    problem = .noHostDir ∨ ∃ dir, problem = .missingHostDir dir := by
  refine (isWarning_iff_of_mem hproblem).mp ?_
  simpa using List.filter_eq_nil_iff.mp h problem hproblem

/-- Validation lets policies through that exist. -/
theorem exists_policy (h : c.fatalProblems fs = []) :
    ∃ policy, FallbackPolicy.ofText? c.layout.fallbackPolicy = some policy := by
  rw [← LayoutConfig.mem_fallbackPolicies_iff]
  by_contra hunknown
  have hproblem : ConfigProblem.fallbackPolicy c.layout.fallbackPolicy
      LayoutConfig.fallbackPolicies ∈ c.problems fs := by
    simp [problems, LayoutConfig.problems, hunknown]
  rcases eq_of_mem_problems h hproblem with hhost | ⟨dir, hhost⟩ <;> cases hhost

/-- Validation lets no extensions through that are empty. -/
theorem ne_empty_of_mem (h : c.fatalProblems fs = []) {list : List String}
    (hlist : list ∈ [c.layout.moduleExtensions, c.layout.extensionModuleExtensions]) :
    ∀ e ∈ list, e ≠ "" := by
  rintro e he rfl
  have hbad : ∀ field, ConfigProblem.badExtension field "" ∈
      LayoutConfig.extensionProblems field list := by
    intro field
    refine List.mem_append_right _ (List.mem_map.mpr ⟨"", ?_, rfl⟩)
    exact List.mem_filter.mpr ⟨he, by decide⟩
  have hproblem : ∃ field, ConfigProblem.badExtension field "" ∈ c.problems fs := by
    rw [List.mem_cons, List.mem_singleton] at hlist
    rcases hlist with rfl | rfl
    · exact ⟨"layout.module_extensions", by simp [problems, LayoutConfig.problems, hbad]⟩
    · exact ⟨"layout.extension_module_extensions", by simp [problems, LayoutConfig.problems, hbad]⟩
  obtain ⟨field, hproblem⟩ := hproblem
  rcases eq_of_mem_problems h hproblem with hhost | ⟨dir, hhost⟩ <;> cases hhost

end RunnerConfig

end RealmBoot
