import Mathlib.Data.List.Induction

namespace path

/-- The segment `name` seen from a directory given by its names from the root on. -/
def enter (dir : List (List Char)) (name : List Char) : List (List Char) :=
  if name = [] ∨ name = ['.'] then dir
  else if name = ['.', '.'] then dir.dropLast
  else dir ++ [name]

/-- Where an absolute path leads when no symbolic link is on it. -/
def resolve (text : List Char) : List (List Char) :=
  (text.splitOn '/').foldl enter []

/-- The names with a slash before each of them. -/
def slashed (names : List (List Char)) : List Char :=
  names.flatMap fun name => '/' :: name

def render (names : List (List Char)) : List Char :=
  if names = [] then ['/'] else slashed names

/-- The lexical normal form: no repeated slashes, no dot segments. -/
def normal (text : List Char) : List Char := render (resolve text)

def is_absolute (text : List Char) : Bool := text.head? == some '/'

/-- `Path::join`. -/
def join (dir name : List Char) : List Char :=
  if is_absolute name then name
  else if dir = [] ∨ dir.getLast? = some '/' then dir ++ name
  else dir ++ '/' :: name

/-- A name that stands for itself in a path. -/
structure Plain (name : List Char) : Prop where
  not_empty : name ≠ []
  not_dot : name ≠ ['.']
  not_dot_dot : name ≠ ['.', '.']
  no_slash : '/' ∉ name

section Resolve

variable {dir text name : List Char} {names : List (List Char)}

theorem enter_plain (h : Plain name) (names : List (List Char)) : enter names name = names ++ [name] := by
  simp [enter, h.not_empty, h.not_dot, h.not_dot_dot]

/-- What follows a slash is entered from where the text before it leads. -/
theorem resolve_append (dir text : List Char) :
    resolve (dir ++ '/' :: text) = (text.splitOn '/').foldl enter (resolve dir) := by
  rw [resolve, List.splitOn_append_cons_self, List.foldl_append, resolve]

theorem resolve_append_plain (h : Plain name) : resolve (dir ++ '/' :: name) = resolve dir ++ [name] := by
  rw [resolve_append, List.splitOn_eq_singleton h.no_slash]
  exact enter_plain h _

theorem foldl_enter_plain {segments : List (List Char)} (h : ∀ s ∈ segments, Plain s) (names : List (List Char)) :
    segments.foldl enter names = names ++ segments := by
  induction segments generalizing names with
  | nil => simp
  | cons s segments ih =>
    obtain ⟨hs, hrest⟩ := List.forall_mem_cons.mp h
    rw [List.foldl_cons, enter_plain hs, ih hrest, List.append_assoc]
    rfl

theorem resolve_append_slash (dir : List Char) : resolve (dir ++ ['/']) = resolve dir := by
  rw [resolve_append]
  rfl

theorem resolve_join (h : Plain name) (hdir : dir ≠ []) : resolve (join dir name) = resolve dir ++ [name] := by
  have habsolute : is_absolute name = false := by
    cases name with
    | nil => exact absurd rfl h.not_empty
    | cons c rest =>
      have hc : c ≠ '/' := fun hc => h.no_slash (hc ▸ List.mem_cons_self)
      simpa [is_absolute] using hc
  rw [join, habsolute, if_neg (by simp)]
  by_cases hlast : dir.getLast? = some '/'
  · obtain ⟨front, rfl⟩ := List.getLast?_eq_some_iff.mp hlast
    rw [if_pos (.inr hlast), List.append_assoc, resolve_append_slash]
    exact resolve_append_plain h
  · rw [if_neg (by simp [hdir, hlast])]
    exact resolve_append_plain h

theorem plain_of_mem_foldl {segments : List (List Char)} (hsegments : ∀ s ∈ segments, '/' ∉ s)
    (hnames : ∀ n ∈ names, Plain n) : ∀ n ∈ segments.foldl enter names, Plain n := by
  induction segments generalizing names with
  | nil => exact hnames
  | cons s segments ih =>
    obtain ⟨hs, hrest⟩ := List.forall_mem_cons.mp hsegments
    apply ih hrest
    intro n hn
    rw [enter] at hn
    split_ifs at hn with hskip hparent
    · exact hnames n hn
    · exact hnames n (List.dropLast_subset _ hn)
    · obtain hold | hnew := List.mem_append.mp hn
      · exact hnames n hold
      · obtain rfl := List.mem_singleton.mp hnew
        exact ⟨fun h => hskip (.inl h), fun h => hskip (.inr h), hparent, hs⟩

/-- No piece of a split holds the separator. -/
theorem not_mem_of_mem_splitOn {c : Char} : ∀ s ∈ text.splitOn c, c ∉ s := by
  induction text with
  | nil => simp
  | cons head rest ih =>
    intro s hs
    rw [List.splitOn_cons_eq_if_modifyHead] at hs
    split_ifs at hs with hhead
    · obtain rfl | hrest := List.mem_cons.mp hs
      · exact List.not_mem_nil
      · exact ih s hrest
    · cases hsplit : rest.splitOn c with
      | nil => simp [hsplit] at hs
      | cons first others =>
        rw [hsplit] at ih hs
        obtain rfl | hrest := List.mem_cons.mp hs
        · have hne : c ≠ head := fun h => hhead (by simp [h])
          simpa [hne] using ih first List.mem_cons_self
        · exact ih s (List.mem_cons_of_mem _ hrest)

theorem plain_of_mem_resolve (text : List Char) : ∀ n ∈ resolve text, Plain n :=
  plain_of_mem_foldl not_mem_of_mem_splitOn (by simp)

private theorem resolve_slashed (h : ∀ n ∈ names, Plain n) : resolve (slashed names) = names := by
  induction names using List.reverseRecOn with
  | nil => rfl
  | append_singleton names name ih =>
    have hslashed : slashed (names ++ [name]) = slashed names ++ '/' :: name := by simp [slashed]
    rw [hslashed, resolve_append_plain (h name (by simp)), ih fun n hn => h n (by simp [hn])]

theorem resolve_render (h : ∀ n ∈ names, Plain n) : resolve (render names) = names := by
  by_cases hnames : names = []
  · subst hnames
    rfl
  · rw [render, if_neg hnames, resolve_slashed h]

/-- The normal form leads where the path does. -/
theorem resolve_normal (text : List Char) : resolve (normal text) = resolve text :=
  resolve_render (plain_of_mem_resolve text)

end Resolve

end path
