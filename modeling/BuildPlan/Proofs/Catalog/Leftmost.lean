import BuildPlan.Proofs.Catalog.Needs

namespace BuildPlan.Catalog

-- All declared needs before `need` can be built, and `need` cannot.
def FirstBlocked (c : Catalog) (task need : Name) : Prop :=
  ∃ t earlier later, c.taskOf task = some t ∧ t.needs = earlier ++ need :: later ∧
    (∀ before ∈ earlier, c.Buildable before) ∧ ¬ c.Buildable need

-- The tasks of the path from the first name, outermost first; the last name comes after them.
inductive LeftmostPath (c : Catalog) : Name → List Name → Name → Prop where
  | here (name : Name) : LeftmostPath c name [] name
  | step {task need name : Name} {path : List Name} : c.FirstBlocked task need →
      LeftmostPath c need path name → LeftmostPath c task (task :: path) name

inductive LeftmostFault (c : Catalog) (root : Name) : Fault → Prop where
  | unknown {path : List Name} {name : Name} : c.LeftmostPath root path name → path.Nodup →
      c.isAssumed name = false → name ∉ c.names → LeftmostFault c root (.unknown name path)
  | circular {path : List Name} {name : Name} : c.LeftmostPath root path name → path.Nodup →
      name ∈ path → LeftmostFault c root (.circular path name)

variable {c : Catalog} {root task need name : Name} {path : List Name}

theorem FirstBlocked.needs (blocked : c.FirstBlocked task need) : c.Needs task need := by
  obtain ⟨_, _, _, found, split, _⟩ := blocked
  exact .of_split found split

theorem FirstBlocked.not_buildable (blocked : c.FirstBlocked task need) : ¬ c.Buildable task := by
  have needs := blocked.needs
  obtain ⟨_, _, _, _, _, _, failing⟩ := blocked
  exact fun buildable => failing (buildable.need needs)

theorem FirstBlocked.unique {other : Name} (one : c.FirstBlocked task need)
    (two : c.FirstBlocked task other) : need = other := by
  obtain ⟨t, earlier, later, found, split, good, bad⟩ := one
  obtain ⟨t', earlier', later', found', split', good', bad'⟩ := two
  cases Option.some.inj (found.symm.trans found')
  rw [split] at split'
  rcases List.append_eq_append_iff.mp split' with ⟨between, longer, rest⟩ | ⟨between, longer, rest⟩
  · cases between with
    | nil => exact (List.cons.inj rest).1
    | cons first _ =>
      cases (List.cons.inj rest).1
      exact absurd (good' need (by simp [longer])) bad
  · cases between with
    | nil => exact (List.cons.inj rest).1.symm
    | cons first _ =>
      cases (List.cons.inj rest).1
      exact absurd (good other (by simp [longer])) bad'

namespace LeftmostPath

theorem concat (way : c.LeftmostPath root path task) (blocked : c.FirstBlocked task need) :
    c.LeftmostPath root (path ++ [task]) need := by
  induction way with
  | here => exact .step blocked (.here need)
  | step first _ ih => exact .step first (ih blocked)

theorem reaches (way : c.LeftmostPath root path name) : c.Reaches root name := by
  induction way with
  | here => exact .refl _
  | step first _ ih => exact .step first.needs ih

theorem blocked_of_mem (way : c.LeftmostPath root path name) (member : task ∈ path) :
    ∃ need, c.FirstBlocked task need ∧ c.Reaches need name := by
  induction way with
  | here => cases member
  | step first rest ih =>
    rcases List.mem_cons.mp member with rfl | later
    · exact ⟨_, first, rest.reaches⟩
    · exact ih later

theorem onCycle (way : c.LeftmostPath root path name) (member : name ∈ path) : c.OnCycle name := by
  obtain ⟨need, blocked, back⟩ := way.blocked_of_mem member
  exact ⟨need, blocked.needs, back⟩

-- Two ways from one root go on together until one of them stops.
theorem comparable {other : List Name} {last : Name} (one : c.LeftmostPath root path name)
    (two : c.LeftmostPath root other last) :
    path ++ [name] <+: other ++ [last] ∨ other ++ [last] <+: path ++ [name] := by
  induction one generalizing other with
  | here name =>
    left
    cases two with
    | here => exact List.prefix_refl _
    | step _ _ => exact ⟨_, rfl⟩
  | step first _ ih =>
    cases two with
    | here => exact .inr ⟨_, rfl⟩
    | step first' rest' =>
      cases first.unique first'
      rcases ih rest' with shorter | longer
      · exact .inl ((List.prefix_cons_inj _).mpr shorter)
      · exact .inr ((List.prefix_cons_inj _).mpr longer)

end LeftmostPath

-- Where a leftmost way stops: it has not met a name twice before, and cannot go on.
structure LeftmostEnd (c : Catalog) (root : Name) (path : List Name) (name : Name) : Prop where
  way : c.LeftmostPath root path name
  distinct : path.Nodup
  stops : name ∈ path ∨ ∀ need, ¬ c.FirstBlocked name need

theorem LeftmostEnd.eq_of_prefix {other : List Name} {last : Name}
    (one : c.LeftmostEnd root path name) (two : c.LeftmostEnd root other last)
    (shorter : path ++ [name] <+: other ++ [last]) : path = other ∧ name = last := by
  rcases List.prefix_concat_iff.mp shorter with same | inside
  · obtain ⟨paths, names⟩ := List.append_inj' same rfl
    exact ⟨paths, (List.cons.inj names).1⟩
  · exfalso
    rcases one.stops with again | stuck
    · have distinct := two.distinct.sublist inside.sublist
      exact (List.nodup_append.mp distinct).2.2 name again name (by simp) rfl
    · have passed : name ∈ other := inside.subset (by simp)
      obtain ⟨need, blocked, _⟩ := two.way.blocked_of_mem passed
      exact stuck need blocked

theorem LeftmostEnd.unique {other : List Name} {last : Name} (one : c.LeftmostEnd root path name)
    (two : c.LeftmostEnd root other last) : path = other ∧ name = last := by
  rcases one.way.comparable two.way with shorter | longer
  · exact one.eq_of_prefix two shorter
  · obtain ⟨paths, names⟩ := two.eq_of_prefix one longer
    exact ⟨paths.symm, names.symm⟩

namespace LeftmostFault

theorem exists_end {fault : Fault} (faulty : c.LeftmostFault root fault) :
    ∃ path name, c.LeftmostEnd root path name ∧
      fault = if name ∈ path then .circular path name else .unknown name path := by
  cases faulty with
  | @unknown path name way distinct _ missing =>
    have stuck : ∀ need, ¬ c.FirstBlocked name need := by
      rintro need ⟨t, _, _, found, _⟩
      exact missing (taskOf_mem_names found)
    have fresh : name ∉ path := by
      intro again
      obtain ⟨need, blocked, _⟩ := way.blocked_of_mem again
      exact stuck need blocked
    exact ⟨path, name, ⟨way, distinct, .inr stuck⟩, by rw [if_neg fresh]⟩
  | @circular path name way distinct again =>
    exact ⟨path, name, ⟨way, distinct, .inl again⟩, by rw [if_pos again]⟩

theorem unique {fault other : Fault} (one : c.LeftmostFault root fault)
    (two : c.LeftmostFault root other) : fault = other := by
  obtain ⟨path, name, stop, rfl⟩ := one.exists_end
  obtain ⟨path', name', stop', rfl⟩ := two.exists_end
  obtain ⟨rfl, rfl⟩ := stop.unique stop'
  rfl

theorem not_buildable {fault : Fault} (faulty : c.LeftmostFault root fault) : ¬ c.Buildable root := by
  intro buildable
  cases faulty with
  | unknown way _ built missing => exact missing ((buildable.reaches way.reaches).registered built)
  | circular way _ again => exact (buildable.reaches way.reaches).not_onCycle (way.onCycle again)

end LeftmostFault

end BuildPlan.Catalog
