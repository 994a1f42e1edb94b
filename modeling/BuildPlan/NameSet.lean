import Std.Data.TreeSet

namespace BuildPlan

-- A task, a target or an outside provision is known by its name alone.
abbrev Name := String

-- The array is the view: members, oldest first, and every operation is described by what it does to
-- them. The tree beside it only answers membership quickly.
structure NameSet where
  members : Array Name
  index : Std.TreeSet Name
  index_exact : ∀ name, name ∈ index ↔ name ∈ members.toList
  nodup : members.toList.Nodup

namespace NameSet

def toList (s : NameSet) : List Name := s.members.toList

def size (s : NameSet) : Nat := s.members.size

def contains (s : NameSet) (name : Name) : Bool := s.index.contains name

instance : Membership Name NameSet := ⟨fun s name => name ∈ s.toList⟩

theorem mem_def {s : NameSet} {name : Name} : name ∈ s ↔ name ∈ s.toList := Iff.rfl

@[simp] theorem contains_iff {s : NameSet} {name : Name} : s.contains name = true ↔ name ∈ s := by
  rw [contains, Std.TreeSet.contains_iff_mem, s.index_exact, mem_def, toList]

instance (s : NameSet) (name : Name) : Decidable (name ∈ s) :=
  decidable_of_iff (s.contains name = true) contains_iff

theorem nodup_toList (s : NameSet) : s.toList.Nodup := s.nodup

theorem size_eq (s : NameSet) : s.size = s.toList.length := by simp [size, toList]

def empty : NameSet where
  members := #[]
  index := ∅
  index_exact := by simp
  nodup := by simp

@[simp] theorem toList_empty : empty.toList = [] := rfl

-- A name that is already a member keeps its place.
def insert (s : NameSet) (name : Name) : NameSet :=
  if fresh : s.index.contains name = true then s else
    { members := s.members.push name
      index := s.index.insert name
      index_exact := by
        intro other
        rw [Std.TreeSet.mem_insert, s.index_exact, Array.toList_push, List.mem_append,
          List.mem_singleton, Std.LawfulEqCmp.compare_eq_iff_eq, or_comm, eq_comm]
      nodup := by
        rw [Std.TreeSet.contains_iff_mem, s.index_exact] at fresh
        rw [Array.toList_push, List.nodup_append]
        refine ⟨s.nodup, by simp, ?_⟩
        intro old known new added same
        rw [List.mem_singleton] at added
        exact fresh (added ▸ same ▸ known) }

theorem toList_insert (s : NameSet) (name : Name) :
    (s.insert name).toList = if name ∈ s then s.toList else s.toList ++ [name] := by
  unfold insert
  by_cases known : s.index.contains name = true
  · rw [dif_pos known, if_pos (contains_iff.mp known)]
  · rw [dif_neg known, if_neg (fun member => known (contains_iff.mpr member))]
    simp [toList]

@[simp] theorem mem_insert {s : NameSet} {name other : Name} :
    other ∈ s.insert name ↔ other ∈ s ∨ other = name := by
  rw [mem_def, toList_insert]
  split
  · rename_i known
    exact ⟨Or.inl, fun either => either.elim id (fun same => same ▸ known)⟩
  · simp [mem_def]

def pop (s : NameSet) : NameSet :=
  match last : s.members.back? with
  | none => s
  | some youngest =>
    { members := s.members.pop
      index := s.index.erase youngest
      index_exact := by
        intro other
        have split : s.members.toList = s.members.toList.dropLast ++ [youngest] := by
          obtain ⟨before, same⟩ := Array.back?_eq_some_iff.mp last
          simp [same]
        have apart := s.nodup
        rw [split, List.nodup_append] at apart
        rw [Std.TreeSet.mem_erase, s.index_exact, Array.toList_pop, ne_eq,
          Std.LawfulEqCmp.compare_eq_iff_eq, split, List.mem_append, List.mem_singleton,
          List.dropLast_concat]
        constructor
        · rintro ⟨different, kept | same⟩
          · exact kept
          · exact absurd same.symm different
        · intro kept
          exact ⟨fun same => apart.2.2 other kept youngest (List.mem_singleton.mpr rfl) same.symm,
            Or.inl kept⟩
      nodup := by
        rw [Array.toList_pop]
        exact List.Sublist.nodup (List.dropLast_sublist _) s.nodup }

theorem toList_pop (s : NameSet) : s.pop.toList = s.toList.dropLast := by
  unfold pop
  split
  · rename_i none
    rw [Array.back?_eq_none_iff] at none
    simp [toList, none]
  · simp [toList]

def popMany (s : NameSet) : (count : Nat) → NameSet
  | 0 => s
  | count + 1 => s.pop.popMany count

theorem toList_popMany (s : NameSet) (count : Nat) :
    (s.popMany count).toList = s.toList.take (s.toList.length - count) := by
  induction count generalizing s with
  | zero => simp [popMany]
  | succ count ih =>
    rw [popMany, ih, toList_pop, List.dropLast_eq_take, List.take_take, List.length_take]
    congr 1
    omega

def truncate (s : NameSet) (size : Nat) : NameSet := s.popMany (s.size - size)

theorem toList_truncate (s : NameSet) (size : Nat) :
    (s.truncate size).toList = s.toList.take size := by
  rw [truncate, toList_popMany, size_eq, List.take_eq_take_iff]
  omega

def insertAll (s : NameSet) (names : List Name) : NameSet := names.foldl insert s

@[simp] theorem insertAll_nil (s : NameSet) : s.insertAll [] = s := rfl

@[simp] theorem insertAll_cons (s : NameSet) (name : Name) (names : List Name) :
    s.insertAll (name :: names) = (s.insert name).insertAll names := rfl

end NameSet
end BuildPlan
