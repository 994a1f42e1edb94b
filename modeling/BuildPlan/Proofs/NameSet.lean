import Mathlib.Data.List.Nodup
import BuildPlan.NameSet

namespace BuildPlan

theorem removeAll_congr {xs ys : List Name} (same : ∀ name, name ∈ xs ↔ name ∈ ys) (names : List Name) :
    names.removeAll xs = names.removeAll ys := by
  refine List.filter_congr ?_
  intro name _
  by_cases member : name ∈ xs
  · simp [member, (same name).mp member]
  · have absent : name ∉ ys := fun there => member ((same name).mpr there)
    simp [member, absent]

theorem eraseDups_append_congr {xs ys : List Name} (same : xs.eraseDups = ys.eraseDups)
    (names : List Name) : (xs ++ names).eraseDups = (ys ++ names).eraseDups := by
  have members : ∀ name, name ∈ xs ↔ name ∈ ys := by
    intro name
    rw [← List.mem_eraseDups, same, List.mem_eraseDups]
  rw [List.eraseDups_append, List.eraseDups_append, same, removeAll_congr members]

theorem eraseDups_append_filter (xs names : List Name) :
    (xs ++ names.filter (· ∉ xs)).eraseDups = (xs ++ names).eraseDups := by
  have once : (names.filter (· ∉ xs)).removeAll xs = names.removeAll xs := by
    simp [List.removeAll, List.filter_filter]
  rw [List.eraseDups_append, List.eraseDups_append, once]

theorem eraseDups_of_nodup {names : List Name} (distinct : names.Nodup) : names.eraseDups = names := by
  induction names with
  | nil => rfl
  | cons name rest ih =>
    rw [List.nodup_cons] at distinct
    have others : rest.filter (fun other => !other == name) = rest := by
      rw [List.filter_eq_self]
      intro other member
      have different : other ≠ name := fun same => distinct.1 (same ▸ member)
      simpa using different
    rw [List.eraseDups_cons, others, ih distinct.2]

theorem eraseDups_append_within {xs names : List Name} (inside : ∀ name ∈ names, name ∈ xs) :
    (xs ++ names).eraseDups = xs.eraseDups := by
  have nothing : names.removeAll xs = [] := by simpa [List.removeAll] using inside
  rw [List.eraseDups_append, nothing]
  simp

namespace NameSet

theorem insertAll_append (s : NameSet) (names more : List Name) :
    s.insertAll (names ++ more) = (s.insertAll names).insertAll more := List.foldl_append

theorem mem_insertAll {s : NameSet} {names : List Name} {name : Name} :
    name ∈ s.insertAll names ↔ name ∈ s ∨ name ∈ names := by
  induction names generalizing s with
  | nil => simp
  | cons first rest ih => rw [insertAll_cons, ih, mem_insert, List.mem_cons, or_assoc]

theorem prefix_insertAll (s : NameSet) (names : List Name) : s.toList <+: (s.insertAll names).toList := by
  induction names generalizing s with
  | nil => exact List.prefix_rfl
  | cons first rest ih =>
    have grown : s.toList <+: (s.insert first).toList := by
      rw [toList_insert]
      split
      · exact List.prefix_rfl
      · exact List.prefix_append s.toList [first]
    exact grown.trans (ih (s.insert first))

theorem toList_insertAll (s : NameSet) (names : List Name) :
    (s.insertAll names).toList = (s.toList ++ names).eraseDups := by
  induction names generalizing s with
  | nil => rw [insertAll_nil, List.append_nil, eraseDups_of_nodup s.nodup_toList]
  | cons first rest ih =>
    rw [insertAll_cons, ih, toList_insert, List.append_cons s.toList first rest]
    split
    · -- A name that is known already adds nothing.
      rename_i known
      have inside : ∀ name ∈ [first], name ∈ s.toList := by simpa using mem_def.mp known
      exact (eraseDups_append_congr (eraseDups_append_within inside) rest).symm
    · rfl

theorem insert_of_mem {s : NameSet} {name : Name} (known : name ∈ s) : s.insert name = s :=
  dif_pos (contains_iff.mpr known)

-- The set can be made again from its members alone, in their order.
def Remade (s : NameSet) : Prop := empty.insertAll s.toList = s

theorem Remade.insert {s : NameSet} (remade : s.Remade) (name : Name) : (s.insert name).Remade := by
  by_cases known : name ∈ s
  · rwa [insert_of_mem known]
  · rw [Remade, toList_insert, if_neg known, insertAll_append, remade]
    rfl

theorem Remade.insertAll {s : NameSet} (remade : s.Remade) (names : List Name) : (s.insertAll names).Remade := by
  induction names generalizing s with
  | nil => exact remade
  | cons name rest ih => exact ih (remade.insert name)

-- Only the first places of the names decide what the set becomes.
theorem Remade.insertAll_congr {s : NameSet} (remade : s.Remade) {names others : List Name}
    (same : (s.toList ++ names).eraseDups = (s.toList ++ others).eraseDups) :
    s.insertAll names = s.insertAll others := by
  have again := remade.insertAll names
  have again' := remade.insertAll others
  rw [Remade, toList_insertAll] at again again'
  rw [← again, same, again']

end NameSet

theorem nodup_eraseDups (names : List Name) : names.eraseDups.Nodup := by
  have filled := NameSet.toList_insertAll .empty names
  rw [NameSet.toList_empty, List.nil_append] at filled
  exact filled ▸ NameSet.nodup_toList _

end BuildPlan
