import Mathlib.Data.List.Induction
import ShaderBuild.Proofs.Path

/-!
This module contains which components of a path are in its normal form. They are the ones that no
later `..` cancels, and a `..` cancels a component if what is between them leads back to where it
starts. So the normal form of a path stands for the path wherever something is joined to it.
-/

namespace ShaderBuild
namespace Path

variable {opened components : List (List Char)} {path result : String}

/--
The components of a path without those that lead nowhere, empty ones and `.`.
-/
def steps (path : String) : List (List Char) :=
  (Text.pieces '/' path.toList).filter fun component => component ≠ [] ∧ component ≠ ['.']

/--
The components lead back to where they start, and not above it on the way.
-/
structure Balanced (components : List (List Char)) : Prop where
  ups_le_downs : ∀ first, first <+: components → ups first ≤ downs first
  ups_eq_downs : ups components = downs components

/--
One of the components is the `..` that matches a name in front of them.
-/
def Cancels (components : List (List Char)) : Prop :=
  ∃ inner after, components = inner ++ ['.', '.'] :: after ∧ Balanced inner

@[simp]
theorem downs_append (l l' : List (List Char)) : downs (l ++ l') = downs l + downs l' :=
  List.countP_append

@[simp]
theorem ups_append (l l' : List (List Char)) : ups (l ++ l') = ups l + ups l' :=
  List.count_append

theorem cancels_of_prefix {first : List (List Char)} (hfront : first <+: components)
    (hfirst : downs first < ups first) : Cancels components := by
  induction components using List.reverseRecOn generalizing first with
  | nil =>
    rw [List.prefix_nil.mp hfront] at hfirst
    exact absurd hfirst (Nat.not_lt_zero _)
  | append_singleton l component ih =>
    by_cases hshorter : ∃ shorter, shorter <+: l ∧ downs shorter < ups shorter
    . rcases hshorter with ⟨shorter, hshorter, hlt⟩
      rcases ih hshorter hlt with ⟨inner, after, rfl, hinner⟩
      exact ⟨inner, after ++ [component], by simp, hinner⟩
    . -- nothing before the last component leads too far, so this is the `..` that does
      have hbefore : ∀ shorter, shorter <+: l → ups shorter ≤ downs shorter :=
        fun shorter hfront => Nat.le_of_not_lt fun hlt => hshorter ⟨shorter, hfront, hlt⟩
      have hle := hbefore l List.prefix_rfl
      rcases List.prefix_concat_iff.mp hfront with rfl | hfront
      . rw [downs_append, ups_append] at hfirst
        by_cases hparent : component = ['.', '.']
        . subst hparent
          rw [downs_parent_cons, ups_parent_cons] at hfirst
          refine ⟨l, [], rfl, hbefore, ?_⟩
          simp only [downs, ups, List.countP_nil, List.count_nil] at hfirst hle ⊢
          omega
        . rw [ups_cons_of_ne hparent] at hfirst
          simp only [ups, List.count_nil] at hfirst hle
          omega
      . exact absurd ⟨first, hfront, hfirst⟩ hshorter

/--
A name is cancelled exactly if one cannot walk along what follows it without the directory that it
opens.
-/
theorem cancels_iff : Cancels components ↔ walk [] components = none := by
  rw [walk_eq_none_iff, List.length_nil]
  constructor
  . rintro ⟨inner, after, rfl, hinner⟩
    refine ⟨inner ++ [['.', '.']], ?_, ?_⟩
    . exact ⟨after, by simp⟩
    . rw [downs_append, ups_append, downs_parent_cons, ups_parent_cons, hinner.ups_eq_downs]
      simp [downs, ups]
  . rintro ⟨first, hfront, hfirst⟩
    rw [Nat.zero_add] at hfirst
    exact cancels_of_prefix hfront hfirst

instance : DecidablePred Cancels :=
  fun components => decidable_of_iff (walk [] components = none) cancels_iff.symm

/--
The names that no later `..` cancels, in their order.
-/
def kept : List (List Char) → List (List Char)
  | [] => []
  | component :: rest =>
    if component = ['.', '.'] ∨ Cancels rest then kept rest else component :: kept rest

/--
The number of directories that are open before the components and are left by them.
-/
def leaves : List (List Char) → Nat
  | [] => 0
  | component :: rest => if component = ['.', '.'] then leaves rest + 1 else leaves rest - 1

theorem walk_filter (opened components : List (List Char)) :
    walk opened (components.filter fun component => component ≠ [] ∧ component ≠ ['.'])
      =
    walk opened components := by
  fun_induction walk opened components with
  | case1 opened => rfl
  | case2 opened rest ih | case3 opened rest ih => simpa using ih
  | case4 rest => simp [walk]
  | case5 rest c opened ih => simpa [walk] using ih
  | case6 opened component rest hnil hdot hparent ih =>
    rw [List.filter_cons_of_pos, walk]
    . exact ih
    . exact hnil
    . exact hdot
    . exact hparent
    . simpa using ⟨hnil, hdot⟩

theorem walk_append (opened components more : List (List Char)) :
    walk opened (components ++ more) =
      (walk opened components).bind fun opened => walk opened more := by
  fun_induction walk opened components with
  | case1 opened => rfl
  | case2 opened rest ih | case3 opened rest ih => rw [List.cons_append, walk, ih]
  | case4 rest => rfl
  | case5 rest c opened ih => rw [List.cons_append, walk, ih]
  | case6 opened component rest hnil hdot hparent ih =>
    rw [List.cons_append, walk, ih]
    . exact hnil
    . exact hdot
    . exact hparent

section

variable (hsteps : ∀ component ∈ components, component ≠ [] ∧ component ≠ ['.'])
include hsteps

theorem walk_eq_none_iff_leaves :
    walk opened components = none ↔ opened.length < leaves components := by
  fun_induction walk opened components with
  | case1 opened => simp [leaves]
  | case2 opened rest ih | case3 opened rest ih =>
    rw [List.forall_mem_cons] at hsteps
    simp at hsteps
  | case4 rest => simp [leaves]
  | case5 rest c opened ih =>
    rw [List.forall_mem_cons] at hsteps
    rw [ih hsteps.2, leaves, if_pos rfl, List.length_cons, Nat.add_lt_add_iff_right]
  | case6 opened component rest hnil hdot hparent ih =>
    rw [List.forall_mem_cons] at hsteps
    rw [ih hsteps.2, leaves, if_neg hparent, List.length_cons]
    omega

/--
A walk ends with the names open that no later `..` cancels, on top of what it does not leave of the
directories that were open before.
-/
theorem walk_eq_some_kept {inner : List (List Char)} (h : walk opened components = some inner) :
    inner = (kept components).reverse ++ opened.drop (leaves components) := by
  fun_induction walk opened components with
  | case1 opened =>
    cases h
    rfl
  | case2 opened rest ih | case3 opened rest ih =>
    rw [List.forall_mem_cons] at hsteps
    simp at hsteps
  | case4 rest => cases h
  | case5 rest c opened ih =>
    rw [List.forall_mem_cons] at hsteps
    rw [ih hsteps.2 h, kept, if_pos (.inl rfl), leaves, if_pos rfl, List.drop_succ_cons]
  | case6 opened component rest hnil hdot hparent ih =>
    rw [List.forall_mem_cons] at hsteps
    rw [ih hsteps.2 h, kept, leaves, if_neg hparent]
    have hleaves : Cancels rest ↔ 0 < leaves rest := by
      rw [cancels_iff, walk_eq_none_iff_leaves hsteps.2, List.length_nil]
    by_cases hcancels : Cancels rest
    . -- the name is the first of the directories that the rest leaves
      rw [if_pos (.inr hcancels), ← Nat.sub_add_cancel (hleaves.mp hcancels), List.drop_succ_cons,
        Nat.add_sub_cancel]
    . rw [if_neg fun h => h.elim hparent hcancels]
      have hzero : leaves rest = 0 := by
        rw [hleaves] at hcancels
        omega
      simp [hzero]

end

theorem isStep_of_mem_steps :
    ∀ component ∈ steps path, component ≠ [] ∧ component ≠ ['.'] := by
  intro component hcomponent
  unfold steps at hcomponent
  simpa using (List.mem_filter.mp hcomponent).2

theorem walk_steps (path : String) :
    walk [] (steps path) = walk [] (Text.pieces '/' path.toList) :=
  walk_filter [] _

theorem downs_steps (path : String) :
    downs (steps path) = downs (Text.pieces '/' path.toList) := by
  unfold downs steps
  rw [List.countP_filter]
  congr 1
  funext component
  grind

theorem ups_steps (path : String) : ups (steps path) = ups (Text.pieces '/' path.toList) := by
  unfold ups steps
  rw [List.count_filter]
  decide

theorem leadsNowhere_iff :
    LeadsNowhere path
      ↔
    (∃ first, first <+: steps path ∧ downs first < ups first) ∨
      downs (steps path) = ups (steps path) := by
  have hpieces := @walk_eq_none_iff [] (Text.pieces '/' path.toList)
  have hsteps := @walk_eq_none_iff [] (steps path)
  simp only [List.length_nil, Nat.zero_add] at hpieces hsteps
  unfold LeadsNowhere
  rw [← hpieces, ← hsteps, walk_steps, downs_steps, ups_steps]

theorem toList_of_normalize? (h : normalize? path = some result) :
    result.toList = (if path.toList.head? = some '/' then ['/'] else []) ++
      ['/'].intercalate (kept (steps path)) := by
  rw [normalize?_eq_some_iff] at h
  rcases h with ⟨names, _, hwalk, hresult⟩
  rw [← walk_steps] at hwalk
  have hnames := walk_eq_some_kept isStep_of_mem_steps hwalk
  rw [List.drop_nil, List.append_nil, List.reverse_inj] at hnames
  rw [hresult, hnames]

theorem ne_nil_of_normalize? (h : normalize? path = some result) : path.toList ≠ [] := by
  intro hnil
  rw [normalize?_eq_some_iff, hnil] at h
  rcases h with ⟨names, hne, hwalk, _⟩
  rw [Text.pieces_nil, walk, walk, Option.some.injEq, eq_comm, List.reverse_eq_nil_iff] at hwalk
  exact hne hwalk

/--
One gets to the same place along a path and along its normal form.
-/
theorem walk_of_normalize? (h : normalize? path = some result) :
    walk [] (Text.pieces '/' result.toList) = walk [] (Text.pieces '/' path.toList) := by
  rw [normalize?_eq_some_iff] at h
  rcases h with ⟨names, hne, hwalk, hresult⟩
  have hnames := isName_of_walk (Text.not_mem_of_mem_pieces path.toList) (by simp) hwalk
  simp only [List.mem_reverse] at hnames
  have hpieces := Text.pieces_intercalate hne fun name hname => (hnames name hname).slash_notMem
  have hdown := walk_names hnames []
  rw [List.append_nil] at hdown
  rw [hresult, hwalk]
  split
  . rw [List.singleton_append, Text.pieces_sep_cons, walk, hpieces, hdown]
  . rw [List.nil_append, hpieces, hdown]

theorem normalize?_congr {path' : String}
    (hwalk : walk [] (Text.pieces '/' path.toList) = walk [] (Text.pieces '/' path'.toList))
    (hhead : path.toList.head? = some '/' ↔ path'.toList.head? = some '/') :
    normalize? path = normalize? path' := by
  unfold normalize?
  rw [hwalk]
  simp only [hhead]

/--
What is joined to a path leads to the same place as behind the normal form of the path.
-/
theorem normalize?_join (h : normalize? path = some result) (rest : String) :
    normalize? (path ++ "/" ++ rest) = normalize? (result ++ "/" ++ rest) := by
  have hresult := normalize?_of_isNormal (isNormal_of_normalize? h)
  have htoList (directory : String) :
      (directory ++ "/" ++ rest).toList = directory.toList ++ '/' :: rest.toList := by
    simp
  apply normalize?_congr
  . rw [htoList, htoList, Text.pieces_append, Text.pieces_append, walk_append, walk_append,
      walk_of_normalize? h]
  . rw [htoList, htoList, List.head?_append_of_ne_nil _ (ne_nil_of_normalize? h),
      List.head?_append_of_ne_nil _ (ne_nil_of_normalize? hresult), head?_of_normalize? h]

theorem directory?_join {file : String} (h : '/' ∉ file.toList) (directory : String) :
    directory? (directory ++ "/" ++ file) = some directory := by
  have htoList : (directory ++ "/" ++ file).toList.reverse =
      file.toList.reverse ++ '/' :: directory.toList.reverse := by
    simp
  have hfile : ∀ c ∈ file.toList.reverse, decide (c ≠ '/') = true := by
    intro c hc
    rw [List.mem_reverse] at hc
    exact decide_eq_true (ne_of_mem_of_not_mem hc h)
  unfold directory?
  rw [htoList, List.dropWhile_append_of_pos hfile, List.dropWhile_cons_of_neg (by simp)]
  dsimp only
  rw [List.reverse_reverse, String.ofList_toList]

theorem resolve?_join (h : normalize? path = some result) {file : String}
    (hfile : '/' ∉ file.toList) (name : String) :
    resolve? (path ++ "/" ++ file) name = resolve? (result ++ "/" ++ file) name := by
  unfold resolve?
  rw [directory?_join hfile, directory?_join hfile]
  split
  . rfl
  . exact normalize?_join h name

/--
A path has no normal form exactly if, of the components that lead somewhere, there are more `..`
than others up to some point or as many at the end. The normal form of any other path consists of
the names that no later `..` cancels, and is given from the root if the path is. It is the normal
form of itself, and takes the place of the path in front of everything that is joined to it. So it
makes no difference to the includes in a file how the directory of the file is written.
-/
theorem normalize?_exact (path : String) :
    (normalize? path = none
        ↔
      (∃ first, first <+: steps path ∧ downs first < ups first) ∨
        downs (steps path) = ups (steps path)) ∧
      ∀ result, normalize? path = some result →
        (result.toList = (if path.toList.head? = some '/' then ['/'] else []) ++
            ['/'].intercalate (kept (steps path)) ∧
          (result.toList.head? = some '/' ↔ path.toList.head? = some '/')) ∧
        normalize? result = some result ∧
        (∀ rest, normalize? (path ++ "/" ++ rest) = normalize? (result ++ "/" ++ rest)) ∧
        ∀ file name, '/' ∉ file.toList →
          resolve? (path ++ "/" ++ file) name = resolve? (result ++ "/" ++ file) name := by
  refine ⟨normalize?_eq_none_iff.trans leadsNowhere_iff, ?_⟩
  intro result h
  exact ⟨⟨toList_of_normalize? h, head?_of_normalize? h⟩,
    normalize?_of_isNormal (isNormal_of_normalize? h), normalize?_join h,
    fun _ name hfile => resolve?_join h hfile name⟩

/--
The last `..` cancels `lib`. The names between them are cancelled before.
-/
example : kept (steps "/gpu/.//lib/old/../a/../../x") = ["gpu".toList, "x".toList] := by
  decide +kernel

end Path
end ShaderBuild
