import ShaderBuild.Path
import ShaderBuild.Proofs.Text.Pieces

/-!
This module contains the theory of normal forms of paths: what a path in normal form looks like,
that it is the normal form of itself, and which paths have none. These are the paths that leave
their start upwards on the way, and the ones that end where they start.
-/

namespace ShaderBuild
namespace Path

/--
A component of a path that names an entry of a directory.
-/
structure IsName (component : List Char) : Prop where
  ne_nil : component ≠ []
  ne_dot : component ≠ ['.']
  ne_parent : component ≠ ['.', '.']
  slash_notMem : '/' ∉ component

/--
One or more names with slashes between them, and perhaps a slash in front.
-/
def IsNormal (path : String) : Prop :=
  ∃ names : List (List Char), names ≠ [] ∧ (∀ name ∈ names, IsName name) ∧
    (path.toList = ['/'].intercalate names ∨ path.toList = '/' :: ['/'].intercalate names)

/--
The number of components that lead into a directory or name an entry of it.
-/
def downs (components : List (List Char)) : Nat :=
  components.countP fun component =>
    component ≠ [] && component ≠ ['.'] && component ≠ ['.', '.']

/--
The number of components that lead to the parent.
-/
def ups (components : List (List Char)) : Nat :=
  components.count ['.', '.']

/--
The path leads above its start on the way, or it ends where it starts.
-/
def LeadsNowhere (path : String) : Prop :=
  (∃ first, first <+: Text.pieces '/' path.toList ∧ downs first < ups first) ∨
    downs (Text.pieces '/' path.toList) = ups (Text.pieces '/' path.toList)

variable {opened components names : List (List Char)} {component : List Char} {path result : String}

theorem walk_cons_name (h : IsName component) (opened components : List (List Char)) :
    walk opened (component :: components) = walk (component :: opened) components := by
  rw [walk]
  . exact h.ne_nil
  . exact h.ne_dot
  . exact h.ne_parent

theorem walk_names (h : ∀ name ∈ names, IsName name) (opened : List (List Char)) :
    walk opened names = some (names.reverse ++ opened) := by
  induction names generalizing opened with
  | nil => rfl
  | cons name rest ih =>
    rw [List.forall_mem_cons] at h
    rw [walk_cons_name h.1, ih h.2]
    simp

theorem isName_of_walk {inner : List (List Char)} (hcomponents : ∀ c ∈ components, '/' ∉ c)
    (hopened : ∀ c ∈ opened, IsName c) (h : walk opened components = some inner) :
    ∀ c ∈ inner, IsName c := by
  fun_induction walk opened components with
  | case1 opened =>
    cases h
    exact hopened
  | case2 opened rest ih | case3 opened rest ih =>
    rw [List.forall_mem_cons] at hcomponents
    exact ih hcomponents.2 hopened h
  | case4 rest => cases h
  | case5 rest c opened ih =>
    rw [List.forall_mem_cons] at hcomponents hopened
    exact ih hcomponents.2 hopened.2 h
  | case6 opened component rest hnil hdot hparent ih =>
    rw [List.forall_mem_cons] at hcomponents
    apply ih hcomponents.2 _ h
    rw [List.forall_mem_cons]
    exact ⟨⟨hnil, hdot, hparent, hcomponents.1⟩, hopened⟩

theorem downs_cons_of_ne (hnil : component ≠ []) (hdot : component ≠ ['.'])
    (hparent : component ≠ ['.', '.']) (components : List (List Char)) :
    downs (component :: components) = downs components + 1 := by
  simp [downs, hnil, hdot, hparent]

theorem ups_cons_of_ne (hparent : component ≠ ['.', '.']) (components : List (List Char)) :
    ups (component :: components) = ups components := by
  simp [ups, hparent]

@[simp]
theorem downs_parent_cons (components : List (List Char)) :
    downs (['.', '.'] :: components) = downs components := by
  simp [downs]

@[simp]
theorem ups_parent_cons (components : List (List Char)) :
    ups (['.', '.'] :: components) = ups components + 1 := by
  simp [ups]

@[simp]
theorem downs_skip_cons (hskip : component = [] ∨ component = ['.'])
    (components : List (List Char)) :
    downs (component :: components) = downs components := by
  rcases hskip with rfl | rfl
  . simp [downs]
  . simp [downs]

@[simp]
theorem ups_skip_cons (hskip : component = [] ∨ component = ['.'])
    (components : List (List Char)) :
    ups (component :: components) = ups components := by
  rcases hskip with rfl | rfl
  . simp [ups]
  . simp [ups]

theorem walk_length {inner : List (List Char)} (h : walk opened components = some inner) :
    inner.length + ups components = opened.length + downs components := by
  fun_induction walk opened components with
  | case1 opened =>
    cases h
    rfl
  | case2 opened rest ih | case3 opened rest ih =>
    rw [ups_skip_cons (by simp), downs_skip_cons (by simp)]
    exact ih h
  | case4 rest => cases h
  | case5 rest c opened ih =>
    specialize ih h
    rw [ups_parent_cons, downs_parent_cons, List.length_cons]
    omega
  | case6 opened component rest hnil hdot hparent ih =>
    specialize ih h
    rw [List.length_cons] at ih
    rw [ups_cons_of_ne hparent, downs_cons_of_ne hnil hdot hparent]
    omega

theorem exists_prefix_cons_iff {P : List (List Char) → Prop} (hnil : ¬P []) :
    (∃ first, first <+: component :: components ∧ P first)
      ↔
    ∃ first, first <+: components ∧ P (component :: first) := by
  simp only [List.prefix_cons_iff]
  constructor
  . rintro ⟨first, rfl | ⟨first, rfl, hprefix⟩, hfirst⟩
    . contradiction
    . exact ⟨first, hprefix, hfirst⟩
  . rintro ⟨first, hprefix, hfirst⟩
    exact ⟨component :: first, .inr ⟨first, rfl, hprefix⟩, hfirst⟩

/--
A walk fails exactly if there is a point up to which it leaves more directories than are open then.
-/
theorem walk_eq_none_iff :
    walk opened components = none
      ↔
    ∃ first, first <+: components ∧ opened.length + downs first < ups first := by
  fun_induction walk opened components with
  | case1 opened => simp [ups]
  | case2 opened rest ih | case3 opened rest ih =>
    rw [ih, exists_prefix_cons_iff (by simp [ups])]
    simp
  | case4 rest =>
    rw [exists_prefix_cons_iff (by simp [ups])]
    simp only [true_iff]
    exact ⟨[], List.nil_prefix, by simp [downs]⟩
  | case5 rest c opened ih =>
    rw [ih, exists_prefix_cons_iff (by simp [ups])]
    simp only [ups_parent_cons, downs_parent_cons, List.length_cons, Nat.add_right_comm _ 1,
      Nat.add_lt_add_iff_right]
  | case6 opened component rest hnil hdot hparent ih =>
    rw [ih, exists_prefix_cons_iff (by simp [ups])]
    simp only [ups_cons_of_ne hparent, downs_cons_of_ne hnil hdot hparent, List.length_cons,
      Nat.add_right_comm _ 1, ← Nat.add_assoc]

theorem normalize?_eq_some_iff :
    normalize? path = some result
      ↔
    ∃ names, names ≠ [] ∧ walk [] (Text.pieces '/' path.toList) = some names.reverse ∧
      result.toList = (if path.toList.head? = some '/' then ['/'] else []) ++
        ['/'].intercalate names := by
  unfold normalize?
  constructor
  . intro h
    split at h
    . cases h
    . cases h
    . next inner outer hwalk =>
      cases h
      refine ⟨(inner :: outer).reverse, by simp, ?_, ?_⟩
      . rw [List.reverse_reverse]
        exact hwalk
      . rw [String.toList_ofList]
        split <;> rfl
  . rintro ⟨names, hne, hwalk, hresult⟩
    rw [hwalk]
    cases hnames : names.reverse with
    | nil => exact absurd (List.reverse_eq_nil_iff.mp hnames) hne
    | cons inner outer =>
      dsimp only
      rw [← hnames, List.reverse_reverse, Option.some.injEq, ← String.toList_inj,
        String.toList_ofList, hresult]
      split <;> rfl

theorem isNormal_of_normalize? (h : normalize? path = some result) : IsNormal result := by
  rw [normalize?_eq_some_iff] at h
  rcases h with ⟨names, hne, hwalk, hresult⟩
  have hnames := isName_of_walk (Text.not_mem_of_mem_pieces path.toList) (by simp) hwalk
  refine ⟨names, hne, fun name hname => hnames name (List.mem_reverse.mpr hname), ?_⟩
  split at hresult
  . exact .inr hresult
  . exact .inl hresult

theorem head?_intercalate_ne (hne : names ≠ []) (h : ∀ name ∈ names, IsName name) :
    (['/'].intercalate names).head? ≠ some '/' := by
  cases names with
  | nil => contradiction
  | cons name rest =>
    rw [List.forall_mem_cons] at h
    have hslash := h.1.slash_notMem
    cases name with
    | nil => exact absurd rfl h.1.ne_nil
    | cons c name =>
      rw [List.mem_cons, not_or] at hslash
      cases rest with
      | nil => simpa using Ne.symm hslash.1
      | cons name' rest => simpa [List.intercalate_cons_cons] using Ne.symm hslash.1

/--
A path in normal form is the normal form of itself.
-/
theorem normalize?_of_isNormal (h : IsNormal path) : normalize? path = some path := by
  rcases h with ⟨names, hne, hnames, hpath⟩
  have hslash : ∀ name ∈ names, '/' ∉ name := fun name hname => (hnames name hname).slash_notMem
  have hwalk : walk [] names = some names.reverse := by
    rw [walk_names hnames, List.append_nil]
  rw [normalize?_eq_some_iff]
  refine ⟨names, hne, ?_⟩
  rcases hpath with hpath | hpath
  . rw [hpath, Text.pieces_intercalate hne hslash, if_neg (head?_intercalate_ne hne hnames)]
    exact ⟨hwalk, rfl⟩
  . rw [hpath, Text.pieces_sep_cons, walk, Text.pieces_intercalate hne hslash, List.head?_cons,
      if_pos rfl]
    exact ⟨hwalk, rfl⟩

/--
A path has no normal form exactly if it leads above its start on the way or ends where it starts.
-/
theorem normalize?_eq_none_iff : normalize? path = none ↔ LeadsNowhere path := by
  have hclimbs := @walk_eq_none_iff [] (Text.pieces '/' path.toList)
  simp only [List.length_nil, Nat.zero_add] at hclimbs
  unfold LeadsNowhere normalize?
  rw [← hclimbs]
  split
  . next hwalk => simp [hwalk]
  . next hwalk =>
    have hlength := walk_length hwalk
    rw [List.length_nil, Nat.zero_add, Nat.zero_add] at hlength
    simp [hlength]
  . next inner outer hwalk =>
    have hlength := walk_length hwalk
    rw [List.length_cons, List.length_nil, Nat.zero_add] at hlength
    have hne : downs (Text.pieces '/' path.toList) ≠ ups (Text.pieces '/' path.toList) := by omega
    simp [hwalk, hne]

theorem head?_of_normalize? (h : normalize? path = some result) :
    result.toList.head? = some '/' ↔ path.toList.head? = some '/' := by
  rw [normalize?_eq_some_iff] at h
  rcases h with ⟨names, hne, hwalk, hresult⟩
  have hnames := isName_of_walk (Text.not_mem_of_mem_pieces path.toList) (by simp) hwalk
  simp only [List.mem_reverse] at hnames
  rw [hresult]
  split
  . next hslash => simp [hslash]
  . next hslash => simp [hslash, head?_intercalate_ne hne hnames]

/--
The path without slashes in front.
-/
def fromRoot (path : String) : String :=
  String.ofList (path.toList.dropWhile (· = '/'))

theorem toList_fromRoot_of_isNormal (h : IsNormal path) :
    ∃ names, names ≠ [] ∧ (∀ name ∈ names, IsName name) ∧
      (fromRoot path).toList = ['/'].intercalate names ∧
      path.toList = (if path.toList.head? = some '/' then ['/'] else []) ++
        (fromRoot path).toList := by
  rcases h with ⟨names, hne, hnames, hpath⟩
  have hhead := head?_intercalate_ne hne hnames
  have hdrop : (['/'].intercalate names).dropWhile (· = '/') = ['/'].intercalate names := by
    cases hcs : ['/'].intercalate names with
    | nil => rfl
    | cons c cs =>
      rw [hcs, List.head?_cons, ne_eq, Option.some.injEq] at hhead
      rw [List.dropWhile_cons_of_neg (by simpa using hhead)]
  unfold fromRoot
  rw [String.toList_ofList]
  rcases hpath with hpath | hpath
  . refine ⟨names, hne, hnames, ?_⟩
    rw [hpath, hdrop, if_neg hhead]
    exact ⟨rfl, rfl⟩
  . refine ⟨names, hne, hnames, ?_⟩
    rw [hpath, List.dropWhile_cons_of_pos (by simp), hdrop, List.head?_cons, if_pos rfl]
    exact ⟨rfl, rfl⟩

/--
A relative path each component of which leads further down.
-/
structure IsDescent (path : String) : Prop where
  ne_empty : path ≠ ""
  head?_ne : path.toList.head? ≠ some '/'
  isName : ∀ component ∈ Text.pieces '/' path.toList, IsName component

theorem isDescent_fromRoot (h : IsNormal path) : IsDescent (fromRoot path) := by
  rcases toList_fromRoot_of_isNormal h with ⟨names, hne, hnames, hrelative, _⟩
  have hslash : ∀ name ∈ names, '/' ∉ name := fun name hname => (hnames name hname).slash_notMem
  have hpieces : Text.pieces '/' (fromRoot path).toList = names := by
    rw [hrelative, Text.pieces_intercalate hne hslash]
  constructor
  . intro hempty
    rw [hempty] at hpieces
    apply (hnames [] _).ne_nil rfl
    rw [← hpieces]
    exact List.mem_singleton_self _
  . rw [hrelative]
    exact head?_intercalate_ne hne hnames
  . rw [hpieces]
    exact hnames

/--
A path in normal form is given by what follows the root and whether there is a slash in front.
-/
theorem eq_of_fromRoot_eq {path' : String} (h : IsNormal path) (h' : IsNormal path')
    (heq : fromRoot path = fromRoot path')
    (hhead : path.toList.head? = some '/' ↔ path'.toList.head? = some '/') : path = path' := by
  rcases toList_fromRoot_of_isNormal h with ⟨_, _, _, _, hpath⟩
  rcases toList_fromRoot_of_isNormal h' with ⟨_, _, _, _, hpath'⟩
  rw [← String.toList_inj, hpath, hpath', heq]
  simp only [hhead]

/--
The path that an include of `name` in the file `includer` asks for, as it is written.
-/
def target (includer name : String) : String :=
  if name.toList.head? = some '/' then
    name
  else
    match directory? includer with
    | none => name
    | some directory => directory ++ "/" ++ name

theorem resolve?_eq (includer name : String) :
    resolve? includer name = normalize? (target includer name) := by
  unfold resolve? target
  split
  . rfl
  . cases directory? includer with
    | none => rfl
    | some directory => rfl

theorem head?_of_directory? {directory : String} (h : directory? path = some directory) :
    (directory ++ "/").toList.head? = path.toList.head? := by
  have hparts := List.takeWhile_append_dropWhile (p := (· ≠ '/')) (l := path.toList.reverse)
  unfold directory? at h
  split at h
  . cases h
  . next c outer hdrop =>
    cases h
    have hslash : c = '/' := by
      have hhead := List.head?_dropWhile_not (· ≠ '/') path.toList.reverse
      rw [hdrop] at hhead
      simpa using hhead
    rw [hdrop, hslash] at hparts
    rw [← List.reverse_reverse path.toList, ← hparts]
    simp

theorem directory?_ne_none (h : path.toList.head? = some '/') : directory? path ≠ none := by
  rw [List.head?_eq_some_iff] at h
  rcases h with ⟨cs, hpath⟩
  unfold directory?
  rw [hpath, List.reverse_cons, List.dropWhile_append]
  cases cs.reverse.dropWhile (· ≠ '/') with
  | nil => simp
  | cons c outer => simp

theorem head?_target {includer name : String} :
    (target includer name).toList.head? = some '/'
      ↔
    name.toList.head? = some '/' ∨ includer.toList.head? = some '/' := by
  unfold target
  split
  . next hname => simp [hname]
  . next hname =>
    cases hdirectory : directory? includer with
    | none =>
      have hincluder : includer.toList.head? ≠ some '/' :=
        fun hslash => directory?_ne_none hslash hdirectory
      simp [hname, hincluder]
    | some directory =>
      dsimp only
      rw [String.toList_append, List.head?_append_of_ne_nil, head?_of_directory? hdirectory]
      . simp [hname]
      . simp

end Path
end ShaderBuild
