import Mathlib.Data.List.Basic

namespace self_delimiting

variable {α B : Type}

/-- Of the values in `valid` no encoding is the start of another: what follows
a value can be told from it. -/
def SelfDelimiting (valid : α → Prop) (encode : α → List B) : Prop :=
  ∀ a b, valid a → valid b → ∀ rest rest', encode a ++ rest = encode b ++ rest' → a = b ∧ rest = rest'

variable {valid : α → Prop} {encode : α → List B}

/-- Encodings of one length. -/
theorem of_length {n : Nat} (hlength : ∀ a, (encode a).length = n)
    (hinj : ∀ a b, valid a → valid b → encode a = encode b → a = b) : SelfDelimiting valid encode := by
  intro a b ha hb rest rest' h
  obtain ⟨hcode, hrest⟩ := List.append_inj h (by rw [hlength, hlength])
  exact ⟨hinj a b ha hb hcode, hrest⟩

/-- An encoding behind its length. -/
theorem length_prefixed {sizes : Nat → Prop} {size : Nat → List B} (hsize : SelfDelimiting sizes size)
    (hinj : ∀ a b, encode a = encode b → a = b) :
    SelfDelimiting (fun a => sizes (encode a).length) fun a => size (encode a).length ++ encode a := by
  intro a b ha hb rest rest' h
  simp only [List.append_assoc] at h
  obtain ⟨hlength, hbody⟩ := hsize _ _ ha hb _ _ h
  obtain ⟨hcode, hrest⟩ := List.append_inj hbody hlength
  exact ⟨hinj a b hcode, hrest⟩

/-- A value before a separator that is in each of the values as many times. -/
theorem separated [DecidableEq B] {separator : B} {n : Nat} (hinj : ∀ a b, encode a = encode b → a = b) :
    SelfDelimiting (fun a => (encode a).count separator = n) fun a => encode a ++ [separator] := by
  have hcodes : ∀ (code code' rest rest' : List B), code.count separator = code'.count separator →
      code ++ [separator] ++ rest = code' ++ [separator] ++ rest' → code = code' ∧ rest = rest' := by
    intro code
    induction code with
    | nil =>
      intro code' rest rest' hcount h
      cases code' with
      | nil => exact ⟨rfl, List.append_cancel_left h⟩
      | cons b code' =>
        obtain ⟨rfl, -⟩ := List.cons.inj h
        simp at hcount
    | cons b code ih =>
      intro code' rest rest' hcount h
      cases code' with
      | nil =>
        obtain ⟨rfl, -⟩ := List.cons.inj h
        simp at hcount
      | cons b' code' =>
        obtain ⟨rfl, htail⟩ := List.cons.inj h
        obtain ⟨rfl, hrest⟩ := ih code' rest rest' (by simpa [List.count_cons] using hcount) htail
        exact ⟨rfl, hrest⟩
  intro a b ha hb rest rest' h
  obtain ⟨hcode, hrest⟩ := hcodes _ _ rest rest' (ha.trans hb.symm) h
  exact ⟨hinj a b hcode, hrest⟩

/-- An optional value behind a tag. -/
theorem tagged {present absent : B} (hne : present ≠ absent) (h : SelfDelimiting valid encode)
    {encode_option : Option α → List B} (hsome : ∀ a, encode_option (some a) = present :: encode a)
    (hnone : encode_option none = [absent]) : SelfDelimiting (fun o => ∀ a ∈ o, valid a) encode_option := by
  intro o p ho hp rest rest' heq
  cases o with
  | none =>
    cases p with
    | none => simpa [hnone] using heq
    | some b =>
      rw [hnone, hsome] at heq
      exact absurd (List.cons.inj heq).1 hne.symm
  | some a =>
    cases p with
    | none =>
      rw [hnone, hsome] at heq
      exact absurd (List.cons.inj heq).1 hne
    | some b =>
      rw [hsome, hsome] at heq
      obtain ⟨rfl, hrest⟩ := h a b (ho a rfl) (hp b rfl) _ _ (List.cons.inj heq).2
      exact ⟨rfl, hrest⟩

end self_delimiting
