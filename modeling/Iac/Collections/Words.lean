import Mathlib.Data.List.TakeWhile
import Mathlib.Algebra.GroupWithZero.Nat

namespace tokens

variable {α : Type} {p q : α → Bool} {text rest word : List α}

/-- The words of a text, which the separators `p` keep apart. -/
def words (p : α → Bool) (text : List α) : List (List α) :=
  (text.splitOnP p).filter fun word => word ≠ []

/-- The first word and the text after it. -/
def next_word (p : α → Bool) (text : List α) : List α × List α :=
  let text := text.dropWhile p
  (text.takeWhile fun c => !p c, text.dropWhile fun c => !p c)

def take_words (p : α → Bool) : Nat → List α → List (List α) × List α
  | 0, text => ([], text)
  | n + 1, text =>
    let (word, text) := next_word p text
    let (rest, text) := take_words p n text
    (word :: rest, text)

/-- A text without separators. -/
def Solid (p : α → Bool) (word : List α) : Prop := ∀ c ∈ word, p c = false

@[simp] theorem words_nil (p : α → Bool) : words p [] = [] := by simp [words]

theorem words_cons_sep {c : α} (hc : p c = true) (text : List α) : words p (c :: text) = words p text := by
  have hsplit : (c :: text).splitOnP p = [] :: text.splitOnP p := by
    simpa using List.splitOnP_append_cons (p := p) [] text hc
  simp [words, hsplit]

theorem words_dropWhile (p : α → Bool) (text : List α) : words p (text.dropWhile p) = words p text := by
  induction text with
  | nil => rfl
  | cons c text ih =>
    rw [List.dropWhile_cons]
    split
    · next hc => rw [ih, words_cons_sep hc]
    · rfl

theorem words_of_seps (h : ∀ c ∈ text, p c = true) : words p text = [] := by
  rw [← words_dropWhile, List.dropWhile_eq_nil_iff.mpr h, words_nil]

theorem words_append_seps (h : ∀ c ∈ rest, p c = true) (text : List α) : words p (text ++ rest) = words p text := by
  cases rest with
  | nil => rw [List.append_nil]
  | cons c rest =>
    have hrest := words_of_seps fun d hd => h d (List.mem_cons_of_mem _ hd)
    unfold words at hrest ⊢
    rw [List.splitOnP_append_cons _ _ (h c (List.mem_cons_self ..)), List.filter_append, hrest, List.append_nil]

/-- The text of a word ends at a separator, or with the text. -/
theorem words_append (hword : Solid p word) (hne : word ≠ []) (hrest : ∀ c, rest.head? = some c → p c = true) :
    words p (word ++ rest) = word :: words p rest := by
  cases rest with
  | nil =>
    rw [List.append_nil, words_nil]
    unfold words
    rw [List.splitOnP_eq_singleton hword]
    simp [hne]
  | cons c rest =>
    have hc := hrest c rfl
    rw [words_cons_sep hc]
    unfold words
    rw [List.splitOnP_append_cons_of_forall_mem hword c hc]
    simp [hne]

/-- What the words of a text are made of. -/
theorem words_cases (p : α → Bool) (text : List α) :
    (∀ c ∈ text, p c = true) ∧ words p text = [] ∨
      (next_word p text).1 ≠ [] ∧ Solid p (next_word p text).1 ∧
        (∀ c, (next_word p text).2.head? = some c → p c = true) ∧
        words p text = (next_word p text).1 :: words p (next_word p text).2 := by
  cases hdrop : text.dropWhile p with
  | nil =>
    have hseps := List.dropWhile_eq_nil_iff.mp hdrop
    exact .inl ⟨hseps, words_of_seps hseps⟩
  | cons c rest =>
    have hc : p c = false := by
      have hnot := List.head_dropWhile_not p (l := text) (by simp [hdrop])
      simpa [hdrop] using hnot
    have hsolid : Solid p ((c :: rest).takeWhile fun c => !p c) :=
      fun d hd => by simpa using List.mem_takeWhile_imp hd
    have hends : ∀ d, ((c :: rest).dropWhile fun c => !p c).head? = some d → p d = true := by
      intro d hd
      have hnot := List.head?_dropWhile_not (fun c => !p c) (c :: rest)
      rw [hd] at hnot
      simpa using hnot
    have hne : (c :: rest).takeWhile (fun c => !p c) ≠ [] := by simp [hc]
    refine .inr ?_
    simp only [next_word, hdrop]
    refine ⟨hne, hsolid, hends, ?_⟩
    rw [← words_append hsolid hne hends, List.takeWhile_append_dropWhile, ← hdrop, words_dropWhile]

theorem solid_of_mem_words (h : word ∈ words p text) : Solid p word := by
  generalize hlist : words p text = list at h
  induction list generalizing text with
  | nil => cases h
  | cons first list ih =>
    obtain ⟨-, hnil⟩ | ⟨-, hsolid, -, hcons⟩ := words_cases p text
    · cases hnil.symm.trans hlist
    · obtain ⟨rfl, hrest⟩ := List.cons.inj (hcons.symm.trans hlist)
      obtain rfl | h := List.mem_cons.mp h
      · exact hsolid
      · exact ih hrest h

theorem text_eq_next_word (p : α → Bool) (text : List α) :
    text = text.takeWhile p ++ ((next_word p text).1 ++ (next_word p text).2) := by
  simp only [next_word, List.takeWhile_append_dropWhile]

theorem ne_nil_of_mem_words (h : word ∈ words p text) : word ≠ [] := by
  simpa using (List.mem_filter.mp h).2

/-- The words of a text hold all of it but the separators. -/
theorem flatten_words (p : α → Bool) (text : List α) : (words p text).flatten = text.filter fun c => !p c := by
  generalize hlist : words p text = list
  induction list generalizing text with
  | nil =>
    obtain ⟨hseps, -⟩ | ⟨-, -, -, hcons⟩ := words_cases p text
    · rw [List.flatten_nil, List.filter_eq_nil_iff.mpr fun c hc => by simp [hseps c hc]]
    · cases hlist.symm.trans hcons
  | cons word list ih =>
    obtain ⟨-, hnil⟩ | ⟨-, hsolid, -, hcons⟩ := words_cases p text
    · cases hnil.symm.trans hlist
    · obtain ⟨rfl, hrest⟩ := List.cons.inj (hcons.symm.trans hlist)
      have hseps : (text.takeWhile p).filter (fun c => !p c) = [] :=
        List.filter_eq_nil_iff.mpr fun c hc => by simp [List.mem_takeWhile_imp hc]
      have hword : (next_word p text).1.filter (fun c => !p c) = (next_word p text).1 :=
        List.filter_eq_self.mpr fun c hc => by simp [hsolid c hc]
      have hwhole := congrArg (List.filter fun c => !p c) (text_eq_next_word p text)
      rw [List.filter_append, List.filter_append, hseps, hword, List.nil_append] at hwhole
      rw [hwhole, List.flatten_cons, ih _ hrest]

/-- Words joined by single separators are the words of the text. -/
theorem words_intercalate {sep : α} (hsep : p sep = true) {list : List (List α)}
    (hlist : ∀ word ∈ list, word ≠ [] ∧ Solid p word) : words p ([sep].intercalate list) = list := by
  induction list with
  | nil => simp
  | cons word list ih =>
    obtain ⟨⟨hne, hsolid⟩, hrest⟩ := List.forall_mem_cons.mp hlist
    cases list with
    | nil =>
      have hend : ∀ c, ([] : List α).head? = some c → p c = true := by simp
      simpa using words_append hsolid hne hend
    | cons next list =>
      rw [List.intercalate_cons_cons, List.append_assoc, List.singleton_append,
        words_append hsolid hne (by simp [hsep]), words_cons_sep hsep, ih hrest]

/-- A word between separators is the next one. -/
theorem next_word_append {seps : List α} (hseps : ∀ c ∈ seps, p c = true) (hword : Solid p word) (hne : word ≠ [])
    (hrest : ∀ c, rest.head? = some c → p c = true) : next_word p (seps ++ (word ++ rest)) = (word, rest) := by
  have hnot : ∀ c ∈ word, (!p c) = true := fun c hc => by simp [hword c hc]
  have hstart : (word ++ rest).dropWhile p = word ++ rest := by
    cases word with
    | nil => exact absurd rfl hne
    | cons c word => simp [hword c (List.mem_cons_self ..)]
  have hstop : rest.takeWhile (fun c => !p c) = [] ∧ rest.dropWhile (fun c => !p c) = rest := by
    cases rest with
    | nil => exact ⟨rfl, rfl⟩
    | cons c rest => simp [hrest c rfl]
  unfold next_word
  simp only [List.dropWhile_append_of_pos hseps, hstart, List.takeWhile_append_of_pos hnot,
    List.dropWhile_append_of_pos hnot, hstop, List.append_nil]

/-- Separators `q` that agree with `p` on a text find its words, up to a separator after it. -/
theorem take_words_append {sep : α} (hsep : q sep = true) (rest : List α) {list : List (List α)}
    (hagree : ∀ c ∈ text, p c = q c) (hwords : words p text = list) :
    ∃ seps, (∀ c ∈ seps, q c = true) ∧
      take_words q list.length (text ++ sep :: rest) = (list, seps ++ sep :: rest) := by
  induction list generalizing text with
  | nil =>
    obtain ⟨hseps, -⟩ | ⟨-, -, -, hcons⟩ := words_cases p text
    · exact ⟨text, fun c hc => hagree c hc ▸ hseps c hc, rfl⟩
    · cases hwords.symm.trans hcons
  | cons word list ih =>
    obtain ⟨-, hnil⟩ | ⟨hne, hsolid, hends, hcons⟩ := words_cases p text
    · cases hnil.symm.trans hwords
    · obtain ⟨hword, hlist⟩ := List.cons.inj (hcons.symm.trans hwords)
      generalize hnext : next_word p text = next at hne hsolid hends hword hlist
      obtain ⟨first, tail⟩ := next
      simp only at hne hsolid hends hword hlist
      subst hword
      have htext := text_eq_next_word p text
      rw [hnext] at htext
      simp only at htext
      have hmem {c : α} (hc : c ∈ text.takeWhile p ∨ c ∈ first ∨ c ∈ tail) : p c = q c := by
        refine hagree c (htext ▸ ?_)
        simpa [List.mem_append] using hc
      obtain ⟨seps, hseps, htake⟩ := ih (fun c hc => hmem (.inr (.inr hc))) hlist
      have hfirst : next_word q (text ++ sep :: rest) = (first, tail ++ sep :: rest) := by
        have hwhole : text ++ sep :: rest = text.takeWhile p ++ (first ++ (tail ++ sep :: rest)) := by
          rw [← List.append_assoc first, ← List.append_assoc, ← htext]
        rw [hwhole]
        refine next_word_append (fun c hc => ?_) (fun c hc => ?_) hne fun c hc => ?_
        · exact hmem (.inl hc) ▸ List.mem_takeWhile_imp hc
        · exact hmem (.inr (.inl hc)) ▸ hsolid c hc
        · cases tail with
          | nil =>
            obtain rfl : sep = c := by simpa using hc
            exact hsep
          | cons d tail =>
            obtain rfl : d = c := by simpa using hc
            exact hmem (.inr (.inr (List.mem_cons_self ..))) ▸ hends d rfl
      refine ⟨seps, hseps, ?_⟩
      simp only [List.length_cons, take_words, hfirst, htake]

/-- Skipping separators loses nothing else. -/
theorem countP_dropWhile {r : α → Bool} (hdisjoint : ∀ c, p c = true → r c = false) (text : List α) :
    (text.dropWhile p).countP r = text.countP r := by
  have hseps : (text.takeWhile p).countP r = 0 :=
    List.countP_eq_zero.mpr fun c hc => by simp [hdisjoint c (List.mem_takeWhile_imp hc)]
  have hwhole := congrArg (List.countP r) (List.takeWhile_append_dropWhile (p := p) (l := text))
  rw [List.countP_append, hseps, Nat.zero_add] at hwhole
  exact hwhole

theorem countP_next_word {r : α → Bool} (hdisjoint : ∀ c, p c = true → r c = false) (text : List α) :
    text.countP r = (next_word p text).1.countP r + (next_word p text).2.countP r := by
  rw [← countP_dropWhile hdisjoint text, ← List.countP_append]
  exact congrArg (List.countP r) List.takeWhile_append_dropWhile.symm

theorem countP_take_words {r : α → Bool} (hdisjoint : ∀ c, p c = true → r c = false) (n : Nat) (text : List α) :
    text.countP r = ((take_words p n text).1.map (List.countP r)).sum + (take_words p n text).2.countP r := by
  induction n generalizing text with
  | zero => simp [take_words]
  | succ n ih =>
    have hnext := countP_next_word hdisjoint text
    have hrest := ih (next_word p text).2
    simp only [take_words, List.map_cons, List.sum_cons]
    omega

section Adjacent

variable {sep : α} {list : List (List α)}

theorem infix_of_not_mem {c : α} {before : List α} (hc : c ∉ before) (h : c :: word <:+: before ++ rest) :
    c :: word <:+: rest := by
  induction before with
  | nil => exact h
  | cons d before ih =>
    rw [List.cons_append, List.infix_cons_iff] at h
    obtain hhere | hlater := h
    · obtain ⟨after, hafter⟩ := hhere
      exact absurd ((List.cons.inj hafter).1 ▸ List.mem_cons_self) hc
    · exact ih (fun hmem => hc (List.mem_cons_of_mem _ hmem)) hlater

/-- What starts a text and has no separator starts its first word. -/
theorem prefix_of_solid (hword : Solid p word) (hrest : ∀ c, rest.head? = some c → p c = true)
    (h : word <+: text ++ rest) : word <+: text := by
  obtain hle | hle := Nat.le_total word.length text.length
  · exact List.prefix_of_prefix_length_le h (List.prefix_append _ _) hle
  · obtain ⟨more, rfl⟩ := List.prefix_of_prefix_length_le (List.prefix_append text rest) h hle
    rw [List.prefix_append_right_inj] at h
    cases more with
    | nil => simp
    | cons c more =>
      obtain ⟨after, rfl⟩ := h
      have hc := hword c (by simp)
      rw [hrest c rfl] at hc
      cases hc

/-- What stands after a separator and has none starts a word. -/
theorem prefix_of_infix_intercalate (hsep : p sep = true) (hlist : ∀ word ∈ list, Solid p word) (hword : Solid p word)
    (h : sep :: word <:+: [sep].intercalate list) : ∃ found ∈ list, word <+: found := by
  have hnot {found : List α} (hfound : Solid p found) : sep ∉ found := fun hmem => by simp [hfound sep hmem] at hsep
  induction list with
  | nil => simp at h
  | cons first list ih =>
    obtain ⟨hfirst, hrest⟩ := List.forall_mem_cons.mp hlist
    cases list with
    | nil =>
      rw [List.intercalate_singleton] at h
      exact absurd (h.subset List.mem_cons_self) (hnot hfirst)
    | cons second list =>
      rw [List.intercalate_cons_cons, List.append_assoc] at h
      obtain hhere | hlater := List.infix_cons_iff.mp (infix_of_not_mem (hnot hfirst) h)
      · obtain ⟨tail, htail⟩ : ∃ tail, [sep].intercalate (second :: list) = second ++ tail ∧
            ∀ c, tail.head? = some c → p c = true := by
          cases list with
          | nil => exact ⟨[], by simp, by simp⟩
          | cons third list => exact ⟨sep :: [sep].intercalate (third :: list), by simp [List.intercalate_cons_cons], by simp [hsep]⟩
        rw [List.prefix_cons_inj, htail.1] at hhere
        exact ⟨second, by simp, prefix_of_solid hword htail.2 hhere⟩
      · obtain ⟨found, hfound, hprefix⟩ := ih hrest hlater
        exact ⟨found, List.mem_cons_of_mem _ hfound, hprefix⟩

theorem mem_intercalate {c : α} (h : c ∈ [sep].intercalate list) : c = sep ∨ ∃ word ∈ list, c ∈ word := by
  induction list with
  | nil => simp at h
  | cons first list ih =>
    cases list with
    | nil => exact .inr ⟨first, by simp, by simpa using h⟩
    | cons second list =>
      rw [List.intercalate_cons_cons, List.append_assoc, List.mem_append, List.mem_append] at h
      obtain hfirst | hsep | hrest := h
      · exact .inr ⟨first, by simp, hfirst⟩
      · exact .inl (List.mem_singleton.mp hsep)
      · obtain hsep | ⟨word, hword, hmem⟩ := ih hrest
        · exact .inl hsep
        · exact .inr ⟨word, List.mem_cons_of_mem _ hword, hmem⟩

/-- Neighbours stand in the text with a separator between them. -/
theorem infix_intercalate (sep : α) (before after : List (List α)) (first second : List α) :
    first ++ sep :: second <:+: [sep].intercalate (before ++ first :: second :: after) := by
  induction before with
  | nil =>
    rw [List.nil_append, List.intercalate_cons_cons, List.append_assoc, List.singleton_append]
    have hsecond : second <+: [sep].intercalate (second :: after) := by
      cases after with
      | nil => simp
      | cons third after => simp [List.intercalate_cons_cons]
    obtain ⟨more, hmore⟩ := hsecond
    exact ⟨[], more, by simp [← hmore]⟩
  | cons word before ih =>
    rw [List.cons_append, List.intercalate_cons_of_ne_nil (by simp)]
    exact ih.trans (List.suffix_append _ _).isInfix

end Adjacent

end tokens
