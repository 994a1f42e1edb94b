import BuildPlan.Command
import BuildPlan.Proofs.Catalog.Validity
import BuildPlan.Proofs.NameSet

namespace BuildPlan.Catalog

variable {c : Catalog} {extra roots : List Name} {name root task need : Name} {t : Task} {s : Schedule}

theorem find?_assumeAll (c : Catalog) (extra : List Name) (name : Name) :
    (c.assumeAll extra).find? name = c.find? name := by
  rw [find?_eq, tasks_assumeAll, ← find?_eq]

theorem mem_assumed_assumeAll :
    name ∈ (c.assumeAll extra).assumed ↔ name ∈ c.assumed ∨ name ∈ extra := by
  rw [assumed_assumeAll, NameSet.mem_insertAll]

theorem isAssumed_assumeAll :
    (c.assumeAll extra).isAssumed name = false ↔ c.isAssumed name = false ∧ name ∉ extra := by
  simp only [Bool.eq_false_iff, ne_eq, isAssumed_iff, mem_assumed_assumeAll, not_or]

theorem rootsOf_assumeAll (c : Catalog) (extra roots : List Name) :
    (c.assumeAll extra).rootsOf roots = c.rootsOf roots := by
  rw [rootsOf, names_assumeAll, rootsOf]

theorem taskOf_assumeAll :
    (c.assumeAll extra).taskOf name = some t ↔ name ∉ extra ∧ c.taskOf name = some t := by
  rw [taskOf_eq_some_iff, taskOf_eq_some_iff, isAssumed_assumeAll, find?_assumeAll]
  constructor
  · rintro ⟨⟨built, other⟩, found⟩
    exact ⟨other, built, found⟩
  · rintro ⟨other, built, found⟩
    exact ⟨⟨built, other⟩, found⟩

theorem Needs.of_assumeAll (needs : (c.assumeAll extra).Needs task need) : c.Needs task need := by
  obtain ⟨t, found, declared⟩ := needs
  exact ⟨t, (taskOf_assumeAll.mp found).2, declared⟩

theorem Reaches.of_assumeAll (way : (c.assumeAll extra).Reaches root name) : c.Reaches root name := by
  induction way with
  | refl => exact .refl _
  | step needs _ ih => exact .step needs.of_assumeAll ih

-- The derivation stays; it only ends earlier where a name is provided now.
theorem Buildable.assumeAll (buildable : c.Buildable name) (extra : List Name) :
    (c.assumeAll extra).Buildable name := by
  induction buildable with
  | assumed provided =>
    rw [isAssumed_iff] at provided
    exact .assumed (isAssumed_iff.mpr (mem_assumed_assumeAll.mpr (.inl provided)))
  | task found _ ih => exact .task ((find?_assumeAll ..).trans found) ih

theorem schedule_assumeAll (made : c.schedule roots = .ok s) (extra : List Name) :
    ∃ fewer, (c.assumeAll extra).schedule roots = .ok fewer ∧
      ∀ name ∈ fewer.names, name ∈ s.names ∧ name ∉ extra := by
  have buildable := schedule_ok_iff_buildable.mp ⟨s, made⟩
  have still : ∀ root ∈ (c.assumeAll extra).rootsOf roots, (c.assumeAll extra).Buildable root := by
    intro root asked
    rw [rootsOf_assumeAll] at asked
    exact (buildable root asked).assumeAll extra
  obtain ⟨fewer, made'⟩ := schedule_ok_iff_buildable.mpr still
  refine ⟨fewer, made', ?_⟩
  intro name member
  obtain ⟨built, root, asked, way⟩ := (mem_schedule_iff made').mp member
  rw [isAssumed_assumeAll] at built
  rw [rootsOf_assumeAll] at asked
  exact ⟨(mem_schedule_iff made).mpr ⟨built.1, root, asked, way.of_assumeAll⟩, built.2⟩

theorem isValid_assumeAll (valid : c.isValid = true) (extra : List Name) :
    (c.assumeAll extra).isValid = true := by
  rw [isValid_iff_buildable] at valid ⊢
  intro name registered
  rw [names_assumeAll] at registered
  exact (valid name registered).assumeAll extra

def builtAmong (c : Catalog) (extra : List Name) : List Name :=
  extra.eraseDups.filter fun name => c.contains name && !c.isAssumed name

theorem mem_builtAmong_iff : name ∈ c.builtAmong extra ↔
    name ∈ extra ∧ name ∈ c.names ∧ c.isAssumed name = false := by
  simp [builtAmong, contains_iff]

theorem buildable_assumeAll (c : Catalog) (extra : List Name) :
    (c.assumeAll extra).buildable = c.buildable.filter fun task => task.name ∉ extra := by
  rw [buildable, buildable, tasks_assumeAll, List.filter_filter]
  refine List.filter_congr fun task _ => ?_
  have built := @isAssumed_assumeAll c extra task.name
  cases old : c.isAssumed task.name <;> by_cases new : task.name ∈ extra <;>
    simp_all

theorem builtAmong_perm (c : Catalog) (extra : List Name) :
    ((c.buildable.filter fun task => task.name ∈ extra).map Task.name).Perm (c.builtAmong extra) := by
  have distinct : ((c.buildable.filter fun task => task.name ∈ extra).map Task.name).Nodup :=
    c.names_nodup.sublist ((List.filter_sublist.trans List.filter_sublist).map Task.name)
  have distinct' : (c.builtAmong extra).Nodup := List.Nodup.filter _ (nodup_eraseDups extra)
  refine (List.perm_ext_iff_of_nodup distinct distinct').mpr fun name => ?_
  rw [mem_builtAmong_iff, List.mem_map]
  constructor
  · rintro ⟨task, member, rfl⟩
    obtain ⟨member, listed⟩ := List.mem_filter.mp member
    obtain ⟨known, built⟩ := List.mem_filter.mp member
    exact ⟨by simpa using listed, List.mem_map_of_mem known, by simpa using built⟩
  · rintro ⟨listed, registered, built⟩
    obtain ⟨task, known, rfl⟩ := List.mem_map.mp registered
    have member : task ∈ c.buildable := List.mem_filter.mpr ⟨known, by simp [built]⟩
    exact ⟨task, List.mem_filter.mpr ⟨member, by simpa using listed⟩, rfl⟩

theorem length_buildable_assumeAll (c : Catalog) (extra : List Name) :
    (c.assumeAll extra).buildable.length + (c.builtAmong extra).length = c.buildable.length := by
  have lost := (builtAmong_perm c extra).length_eq
  rw [List.length_map] at lost
  have parted := List.length_eq_length_filter_add (l := c.buildable) fun task => decide (task.name ∈ extra)
  simp only [← decide_not] at parted
  rw [buildable_assumeAll, ← lost, parted, Nat.add_comm]

theorem extend_eq (c : Catalog) (extra : List Name) (events : Array Event) :
    ((Command.extend c extra).run.run events).1 = .ok (c.assumeAll extra) := by
  unfold Command.extend
  cases extra with
  | nil => rfl
  | cons first rest => rfl

-- The tasks that are left may change places, but no others come in.
theorem assuming_more_is_monotone (c : Catalog) (extra : List Name) :
    (∀ events, ((Command.extend c extra).run.run events).1 = .ok (c.assumeAll extra)) ∧
    (∀ roots s, c.schedule roots = .ok s → ∃ fewer, (c.assumeAll extra).schedule roots = .ok fewer ∧
      ∀ name ∈ fewer.names, name ∈ s.names ∧ name ∉ extra) ∧
    (c.isValid = true → (c.assumeAll extra).isValid = true) ∧
    (c.assumeAll extra).buildable.length + (c.builtAmong extra).length = c.buildable.length := by
  refine ⟨extend_eq c extra, ?_, ?_, length_buildable_assumeAll c extra⟩
  · intro roots s made
    exact schedule_assumeAll made extra
  · intro valid
    exact isValid_assumeAll valid extra

-- The base comes before the doc only because of the lib.
def crossed : Catalog :=
  Catalog.empty.add ⟨"app", ["lib", "doc", "base"]⟩ rfl
    |>.add ⟨"lib", ["base"]⟩ rfl
    |>.add ⟨"doc", []⟩ rfl
    |>.add ⟨"base", []⟩ rfl

theorem crossed_is_monotone :
    crossed.schedule ["app"] = .ok ⟨["base", "lib", "doc", "app"]⟩ ∧
    (crossed.assumeAll ["lib", "ghost", "lib"]).schedule ["app"] = .ok ⟨["doc", "base", "app"]⟩ ∧
    (∀ name ∈ ["doc", "base", "app"],
      name ∈ ["base", "lib", "doc", "app"] ∧ name ∉ ["lib", "ghost", "lib"]) ∧
    crossed.isValid = true ∧ (crossed.assumeAll ["lib", "ghost", "lib"]).isValid = true := by
  obtain ⟨_, schedules, validity, _⟩ := assuming_more_is_monotone crossed ["lib", "ghost", "lib"]
  have made : crossed.schedule ["app"] = .ok ⟨["base", "lib", "doc", "app"]⟩ := by rfl
  have made' : (crossed.assumeAll ["lib", "ghost", "lib"]).schedule ["app"] =
      .ok ⟨["doc", "base", "app"]⟩ := by rfl
  obtain ⟨fewer, found, inside⟩ := schedules _ _ made
  cases Except.ok.inj (found.symm.trans made')
  have everything : crossed.schedule [] = .ok ⟨["base", "lib", "doc", "app"]⟩ := by rfl
  have valid : crossed.isValid = true :=
    isValid_iff_buildable.mpr (schedule_ok_iff_buildable.mp ⟨_, everything⟩)
  exact ⟨made, made', inside, valid, validity valid⟩

end BuildPlan.Catalog
