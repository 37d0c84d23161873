import Mathlib.Data.List.Infix

/-!
Paths as lists of components, without symbolic links. Resolving walks along the components from
the root, or from the directory a relative path is read in, and gives the names from the root
down.
-/

inductive Component where
  | curDir
  | parentDir
  | normal (name : String)
  deriving DecidableEq

structure PathBuf where
  hasRoot : Bool
  components : List Component
  deriving DecidableEq

namespace PathBuf

def componentOf : List Char → Option Component
  | [] => none
  | ['.'] => none
  | ['.', '.'] => some .parentDir
  | name => some (.normal (String.ofList name))

def ofText (text : String) : PathBuf :=
  match text.toList with
  | '/' :: letters => ⟨true, (letters.splitOn '/').filterMap componentOf⟩
  | letters =>
    match letters.splitOn '/' with
    | ['.'] :: parts => ⟨false, .curDir :: parts.filterMap componentOf⟩
    | parts => ⟨false, parts.filterMap componentOf⟩

example : ofText "/srv//app/./../x" =
    ⟨true, [.normal "srv", .normal "app", .parentDir, .normal "x"]⟩ := by
  decide +kernel

def componentText : Component → String
  | .curDir => "."
  | .parentDir => ".."
  | .normal name => name

def display (p : PathBuf) : String :=
  (if p.hasRoot then "/" else "") ++ "/".intercalate (p.components.map componentText)

def empty : PathBuf := ⟨false, []⟩

def join (p q : PathBuf) : PathBuf :=
  if q.hasRoot then q
  else if p = empty then q
  else ⟨p.hasRoot, p.components ++ q.components.filter (· ≠ .curDir)⟩

/-- The comparison is made component by component, and no component is resolved for it. -/
def startsWith (p base : PathBuf) : Bool :=
  base == empty || (base.hasRoot == p.hasRoot && base.components.isPrefixOf p.components)

def parent? (p : PathBuf) : Option PathBuf :=
  if p.components = [] then none else some ⟨p.hasRoot, p.components.dropLast⟩

/-- The path stays below the place it is read from: it is relative and never goes up. -/
def Descends (p : PathBuf) : Prop := p.hasRoot = false ∧ .parentDir ∉ p.components

instance (p : PathBuf) : Decidable p.Descends := inferInstanceAs (Decidable (_ ∧ _))

/-- One step of a walk. The root is its own parent. -/
def walk (dirs : List String) : Component → List String
  | .curDir => dirs
  | .parentDir => dirs.dropLast
  | .normal name => dirs ++ [name]

/-- The place a path leads to when a relative path is read in `base`. -/
def resolveAt (base : List String) (p : PathBuf) : List String :=
  p.components.foldl walk (if p.hasRoot then [] else base)

/-- `p` leads to the place of `root` or to one below it, wherever relative paths are read. -/
def Inside (root p : PathBuf) : Prop := ∀ base, resolveAt base root <+: resolveAt base p

def Below (root p : PathBuf) : Prop :=
  ∀ base, resolveAt base root <+: resolveAt base p ∧ resolveAt base root ≠ resolveAt base p

/-! ### Routes

A walk comes to the same as going up some steps first and then down along some names.
-/

structure Route where
  ups : ℕ
  names : List String
  deriving DecidableEq

namespace Route

def step (route : Route) : Component → Route
  | .curDir => route
  | .parentDir =>
    if route.names = [] then ⟨route.ups + 1, []⟩ else ⟨route.ups, route.names.dropLast⟩
  | .normal name => ⟨route.ups, route.names ++ [name]⟩

def of (components : List Component) : Route := components.foldl step ⟨0, []⟩

theorem walk_step (dirs : List String) (r : Route) (c : Component) :
    walk (dirs.take (dirs.length - r.ups) ++ r.names) c =
      dirs.take (dirs.length - (r.step c).ups) ++ (r.step c).names := by
  cases c with
  | curDir => rfl
  | normal => simp [walk, step]
  | parentDir =>
    by_cases hn : r.names = []
    · simp only [walk, step, hn, if_pos, List.append_nil]
      rw [List.dropLast_eq_take, List.take_take, List.length_take]
      congr 1
      omega
    · simp only [walk, step, if_neg hn]
      rw [List.dropLast_append_of_ne_nil hn]

end Route

theorem foldl_walk (dirs : List String) (c : List Component) : c.foldl walk dirs =
      dirs.take (dirs.length - (Route.of c).ups) ++ (Route.of c).names := by
  induction c using List.reverseRecOn with
  | nil => simp [Route.of]
  | append_singleton _ _ ih =>
    simp only [Route.of, List.foldl_append, List.foldl_cons, List.foldl_nil] at ih ⊢
    rw [ih, Route.walk_step]

theorem isPrefix_foldl_walk (dirs : List String) (c : List Component) : dirs <+: c.foldl walk dirs ↔
      dirs.drop (dirs.length - (Route.of c).ups) <+: (Route.of c).names := by
  rw [foldl_walk]
  conv_lhs => lhs; rw [← List.take_append_drop (dirs.length - (Route.of c).ups) dirs]
  exact List.prefix_append_right_inj _

def name? : Component → Option String
  | .curDir => none
  | .parentDir => none
  | .normal name => some name

theorem foldl_walk_down {c : List Component} (h : .parentDir ∉ c)
    (dirs : List String) : c.foldl walk dirs = dirs ++ c.filterMap name? := by
  induction c generalizing dirs with
  | nil => simp
  | cons component _ ih =>
    rw [List.mem_cons, not_or] at h
    rw [List.foldl_cons, ih h.2]
    cases component with
    | curDir => simp [walk, name?, List.filterMap_cons]
    | parentDir => exact absurd rfl h.1
    | normal name => simp [walk, name?]

theorem filterMap_name?_filter (c : List Component) :
    (c.filter (· ≠ .curDir)).filterMap name? = c.filterMap name? := by
  induction c with
  | nil => rfl
  | cons component => cases component <;> simp_all [name?, List.filterMap_cons]

variable {root p : PathBuf}

theorem resolveAt_join (h : p.Descends) (base : List String) :
    resolveAt base (root.join p) = resolveAt base root ++ p.components.filterMap name? := by
  obtain ⟨hr, hd⟩ := h
  rw [join, hr, if_neg Bool.false_ne_true]
  split
  · next he => simp [resolveAt, he, hr, empty, foldl_walk_down hd]
  next he =>
  have hf : .parentDir ∉ p.components.filter (· ≠ .curDir) :=
    fun hm => hd (List.mem_of_mem_filter hm)
  simp only [resolveAt, List.foldl_append]
  rw [foldl_walk_down hf, filterMap_name?_filter]

theorem inside_join (h : p.Descends) : root.Inside (root.join p) := by
  intro base
  rw [resolveAt_join h]
  exact List.prefix_append _ _

theorem inside_self (root : PathBuf) : root.Inside root := fun _ => List.prefix_rfl

theorem below_join_iff (h : p.Descends) :
    root.Below (root.join p) ↔ p.components.filterMap name? ≠ [] := by
  constructor
  · rintro hb hn
    have := (hb []).2
    rw [resolveAt_join h, hn, List.append_nil] at this
    exact this rfl
  · intro hne base
    rw [resolveAt_join h]
    refine ⟨List.prefix_append _ _, fun heq => hne ?_⟩
    exact List.append_cancel_left ((List.append_nil _).trans heq).symm

def behind (root p : PathBuf) : List Component := p.components.drop root.components.length

/-- Behind the root `p` climbs no step of it, or comes back down along the same names. -/
def ReturnsTo (root p : PathBuf) : Prop :=
  (resolveAt [] root).drop ((resolveAt [] root).length - (Route.of (root.behind p)).ups) <+:
    (Route.of (root.behind p)).names

instance (root p : PathBuf) : Decidable (root.ReturnsTo p) := inferInstanceAs (Decidable (_ <+: _))

theorem resolveAt_of_hasRoot {p : PathBuf} (h : p.hasRoot = true) (base : List String) :
    resolveAt base p = resolveAt [] p := by
  simp [resolveAt, h]

/-- An absolute path that starts with `root` leads inside exactly if the root is absolute and the
rest comes back to it. -/
theorem inside_iff_of_startsWith (hp : p.hasRoot = true) (h : p.startsWith root = true) :
    root.Inside p ↔ root.hasRoot = true ∧ root.ReturnsTo p := by
  rw [startsWith, Bool.or_eq_true, Bool.and_eq_true, beq_iff_eq, beq_iff_eq,
    List.isPrefixOf_iff_prefix] at h
  rcases h with rfl | ⟨hr, rest, hrest⟩
  · -- Relative paths may be read in a deeper directory than the one `p` leads to.
    refine ⟨fun hi => ?_, fun h => absurd h.1 Bool.false_ne_true⟩
    obtain ⟨name⟩ : Nonempty String := inferInstance
    have hl := (hi (name :: resolveAt [] p)).length_le
    rw [resolveAt_of_hasRoot hp (name :: resolveAt [] p)] at hl
    change (resolveAt [] p).length + 1 ≤ (resolveAt [] p).length at hl
    omega
  · have hr' : root.hasRoot = true := hr.trans hp
    have hb : root.behind p = rest := by simp [behind, ← hrest]
    have hw : resolveAt [] p = rest.foldl walk (resolveAt [] root) := by
      simp [resolveAt, ← hrest, List.foldl_append, hp, hr']
    rw [ReturnsTo, hb, ← isPrefix_foldl_walk, ← hw]
    constructor
    · exact fun hi => ⟨hr', hi []⟩
    · rintro ⟨-, hprefix⟩ base
      rwa [resolveAt_of_hasRoot hr', resolveAt_of_hasRoot hp]

end PathBuf
