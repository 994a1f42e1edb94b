import BuildPlan.LoadError

namespace BuildPlan.Text.Placeholder

def hole : List Char := ['{', 't', 'a', 'r', 'g', 'e', 't', '}']

def occurs : List Char → Bool
  | [] => false
  | c :: rest => hole.isPrefixOf (c :: rest) || occurs rest

-- Replace the occurrences after the next `skip` characters, which belong to one already replaced.
def fillFrom (value : List Char) : (skip : Nat) → List Char → List Char
  | _, [] => []
  | skip + 1, _ :: rest => fillFrom value skip rest
  | 0, c :: rest =>
    if hole.isPrefixOf (c :: rest) then value ++ fillFrom value (hole.length - 1) rest
    else c :: fillFrom value 0 rest

def isIn (text : String) : Bool := occurs text.toList

def fill (value text : String) : String := String.ofList (fillFrom value.toList 0 text.toList)

theorem fillFrom_of_not_occurs {value text : List Char} (absent : occurs text = false) :
    fillFrom value 0 text = text := by
  induction text with
  | nil => rfl
  | cons c rest ih =>
    simp only [occurs, Bool.or_eq_false_iff] at absent
    rw [fillFrom, if_neg (by simp [absent.1]), ih absent.2]

theorem fill_of_not_isIn {value text : String} (absent : isIn text = false) : fill value text = text := by
  rw [fill, fillFrom_of_not_occurs absent, String.ofList_toList]

end BuildPlan.Text.Placeholder

namespace BuildPlan

-- If the name has a place for the target, the target is put in there and in every need, and needs without
-- such a place stay as they are. Otherwise it is appended to the name and to every need, after the needs
-- that every task of a target has.
structure Family where
  name : Name
  needs : List Name
  targets : List Name
  exclude : List Name
  -- Needs of every task that is named by appending its target.
  targetNeeds : List Name
  deriving DecidableEq, Repr

namespace Family

def isTemplate (f : Family) : Bool := Text.Placeholder.isIn f.name

def withTarget (text target : Name) : Name := text ++ "-" ++ target

def variant (f : Family) (target : Name) : Task :=
  if f.isTemplate then
    { name := Text.Placeholder.fill target f.name
      needs := f.needs.map (Text.Placeholder.fill target) }
  else
    { name := withTarget f.name target
      needs := f.targetNeeds.map (Text.Placeholder.fill target) ++
        f.needs.map (withTarget · target) }

def remainingTargets (f : Family) : List Name := f.targets.filter fun target => target ∉ f.exclude

def variants (f : Family) : List Task := f.remainingTargets.map f.variant

end Family

structure Draft where
  catalog : Catalog
  events : Array Event

-- Operations on a draft: the draft outlives their failure.
abbrev Drafting := ExceptT LoadError (StateM Draft)

namespace Draft

def empty : Draft := ⟨.empty, #[]⟩

def ofCatalog (c : Catalog) : Draft := ⟨c, #[]⟩

def record (event : Event) : Drafting Unit :=
  modify fun draft => { draft with events := draft.events.push event }

def register (task : Task) : Drafting Unit := do
  let draft ← get
  match draft.catalog.register task with
  | .error fault => throw (.fault fault)
  | .ok catalog =>
    set { draft with
      catalog := catalog
      events := draft.events.push (.registering task.name task.needs) }

def assume (name : Name) : Drafting Unit :=
  modify fun draft => { draft with catalog := draft.catalog.assume name }

def assumeAll (names : List Name) : Drafting Unit := names.forM assume

-- Register every variant of a family, up to the first whose name is taken.
def registerFamily (f : Family) : Drafting Unit :=
  f.variants.forM fun task => do
    record (.registeringVariant f.name task.name)
    register task

def multiply (f : Family) : Drafting Nat := do
  registerFamily f
  pure f.variants.length

def build (draft : Draft) : Catalog × Array Event :=
  (draft.catalog, draft.events.push (.catalogBuilt draft.catalog.size draft.catalog.assumed.size))

end Draft
end BuildPlan
