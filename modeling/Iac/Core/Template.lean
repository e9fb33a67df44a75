import Iac.Collections.Substring
import Iac.Core.Json
import Iac.Core.Text

open serde_json substring

namespace iac_core.template

inductive TemplateError where
  | Unterminated
  | MissingKey (key : String)
  | NotScalar (key : String)
  deriving DecidableEq, Repr

def TemplateError.to_string : TemplateError → String
  | .Unterminated => "unterminated `\x7b\x7b` in template"
  | .MissingKey k => "template variable \x7b\x7b " ++ k ++ " \x7d\x7d not found"
  | .NotScalar k => "template variable \x7b\x7b " ++ k ++ " \x7d\x7d is array/object; only scalar substitution is supported"

def open_braces : List Char := "\x7b\x7b".toList

def close_braces : List Char := "\x7d\x7d".toList

/-- The name that a placeholder encloses. -/
def key_of (inner : List Char) : String := String.ofList (str.trim inner)

/-- A lookup, which may keep a state of its own. -/
abbrev Lookup (σ : Type) := String → ExceptT TemplateError (StateM σ) (Option String)

/-- The loop of `render`. Each round takes a placeholder off the rest, so as
many rounds as there are characters reach its end. -/
def render_loop {σ : Type} (lookup : Lookup σ) : Nat → List Char → String → ExceptT TemplateError (StateM σ) String
  | 0, rest, out => pure (out ++ String.ofList rest)
  | fuel + 1, rest, out =>
    match cut open_braces rest with
    | none => pure (out ++ String.ofList rest)
    | some (before, after) =>
      match cut close_braces after with
      | none => throw .Unterminated
      | some (inner, rest) => do
        match ← lookup (key_of inner) with
        | some s => render_loop lookup fuel rest (out ++ String.ofList before ++ s)
        | none => throw (.NotScalar (key_of inner))

def render {σ : Type} (template : String) (lookup : Lookup σ) : ExceptT TemplateError (StateM σ) String :=
  render_loop lookup template.toList.length template.toList ""

/-- The scalar form of a value; a null is the empty text. -/
def scalar (crates : Crates) : Value → Option String
  | .string s => some s
  | .number n => some (crates.to_string (.number n))
  | .bool b => some (if b then "true" else "false")
  | .null => some ""
  | .array _ => none
  | .object _ => none

def top_scalar (crates : Crates) (vars : List (String × Value)) (key : String) : Except TemplateError (Option String) :=
  match (Value.object vars).get key with
  | none => .error (.MissingKey key)
  | some value => .ok (scalar crates value)

def render_json_top_scalars (crates : Crates) (template : String) (vars : List (String × Value)) :
    Except TemplateError String :=
  ((render template fun key => ExceptT.mk (pure (top_scalar crates vars key))).run ()).1

/-- The scalar form of a YAML value, with what the crate writes for a number. -/
def yaml_scalar (number : Number → String) : Value → Option String
  | .string s => some s
  | .number n => some (number n)
  | .bool b => some (if b then "true" else "false")
  | .null => none
  | .array _ => none
  | .object _ => none

/-- A spec that is no mapping has no key. -/
def yaml_top_scalar (number : Number → String) (spec : Value) (key : String) : Except TemplateError (Option String) :=
  match spec.get key with
  | none => .error (.MissingKey key)
  | some value => .ok (yaml_scalar number value)

def render_yaml_top_scalars (number : Number → String) (template : String) (spec : Value) : Except TemplateError String :=
  ((render template fun key => ExceptT.mk (pure (yaml_top_scalar number spec key))).run ()).1

/-- What follows the last placeholder: text, or an opening that is never closed. -/
inductive Ending where
  | text (rest : List Char)
  | unterminated (before after : List Char)

/-- A placeholder and the text before it. -/
structure Piece where
  before : List Char
  inner : List Char

def Piece.key (piece : Piece) : String := key_of piece.inner

/-- A template is scanned from left to right: each placeholder reaches from the
first opening that is left to the first closing after it. -/
inductive Scans : List Char → List Piece → Ending → Prop where
  | text {rest : List Char} (hnone : ¬ open_braces <:+: rest) : Scans rest [] (.text rest)
  | unterminated {rest before after : List Char} (hopen : FirstCut open_braces rest before after)
      (hnone : ¬ close_braces <:+: after) : Scans rest [] (.unterminated before after)
  | placeholder {rest before after inner rest' : List Char} {pieces : List Piece} {ending : Ending}
      (hopen : FirstCut open_braces rest before after) (hclose : FirstCut close_braces after inner rest')
      (hrest : Scans rest' pieces ending) : Scans rest (⟨before, inner⟩ :: pieces) ending

theorem length_of_placeholder {rest before after inner rest' : List Char} (hopen : FirstCut open_braces rest before after)
    (hclose : FirstCut close_braces after inner rest') : rest'.length < rest.length := by
  have hrest := hopen.length
  have hafter := hclose.length
  have htwo : open_braces.length = 2 := rfl
  omega

theorem Scans.unique {rest : List Char} {pieces pieces' : List Piece} {ending ending' : Ending}
    (h : Scans rest pieces ending) (h' : Scans rest pieces' ending') : pieces = pieces' ∧ ending = ending' := by
  induction h generalizing pieces' with
  | text hnone =>
    cases h' with
    | text _ => exact ⟨rfl, rfl⟩
    | unterminated hopen _ => exact absurd hopen.contained hnone
    | placeholder hopen _ _ => exact absurd hopen.contained hnone
  | unterminated hopen hnone =>
    cases h' with
    | text hnot => exact absurd hopen.contained hnot
    | unterminated hopen' _ =>
      obtain ⟨rfl, rfl⟩ := hopen.unique hopen'
      exact ⟨rfl, rfl⟩
    | placeholder hopen' hclose _ =>
      obtain ⟨rfl, rfl⟩ := hopen.unique hopen'
      exact absurd hclose.contained hnone
  | placeholder hopen hclose _ ih =>
    cases h' with
    | text hnot => exact absurd hopen.contained hnot
    | unterminated hopen' hnone =>
      obtain ⟨rfl, rfl⟩ := hopen.unique hopen'
      exact absurd hclose.contained hnone
    | placeholder hopen' hclose' hrest =>
      obtain ⟨rfl, rfl⟩ := hopen.unique hopen'
      obtain ⟨rfl, rfl⟩ := hclose.unique hclose'
      obtain ⟨rfl, rfl⟩ := ih hrest
      exact ⟨rfl, rfl⟩

/-- Every text is scanned in one way. -/
theorem exists_scan (rest : List Char) : ∃ pieces ending, Scans rest pieces ending := by
  induction hlength : rest.length using Nat.strong_induction_on generalizing rest with
  | _ n ih =>
    by_cases hopens : open_braces <:+: rest
    · obtain ⟨before, after, hopen⟩ := exists_firstCut hopens
      by_cases hcloses : close_braces <:+: after
      · obtain ⟨inner, rest', hclose⟩ := exists_firstCut hcloses
        have hlt := length_of_placeholder hopen hclose
        obtain ⟨pieces, ending, hrest⟩ := ih rest'.length (hlength ▸ hlt) rest' rfl
        exact ⟨_, _, .placeholder hopen hclose hrest⟩
      · exact ⟨_, _, .unterminated hopen hcloses⟩
    · exact ⟨_, _, .text hopens⟩

section Rendering

variable {σ : Type}

/-- Filling the placeholders one after the other. -/
def fill (lookup : Lookup σ) : List Piece → Ending → String → ExceptT TemplateError (StateM σ) String
  | [], .text rest, out => pure (out ++ String.ofList rest)
  | [], .unterminated _ _, _ => throw .Unterminated
  | piece :: pieces, ending, out => do
    match ← lookup piece.key with
    | some s => fill lookup pieces ending (out ++ String.ofList piece.before ++ s)
    | none => throw (.NotScalar piece.key)

theorem render_loop_eq_fill (lookup : Lookup σ) {rest : List Char} {pieces : List Piece} {ending : Ending}
    (h : Scans rest pieces ending) {fuel : Nat} (hfuel : rest.length ≤ fuel) (out : String) :
    render_loop lookup fuel rest out = fill lookup pieces ending out := by
  induction h generalizing fuel out with
  | text hnone =>
    cases fuel with
    | zero => rfl
    | succ fuel => rw [render_loop, cut_eq_none_iff.mpr hnone, fill]
  | unterminated hopen hnone =>
    have hlength := hopen.length
    have htwo : open_braces.length = 2 := rfl
    obtain ⟨fuel, rfl⟩ := Nat.exists_eq_add_of_le' (show 1 ≤ fuel by omega)
    simp only [render_loop, cut_eq_some_iff.mpr hopen, cut_eq_none_iff.mpr hnone, fill]
  | placeholder hopen hclose _ ih =>
    have hlt := length_of_placeholder hopen hclose
    obtain ⟨fuel, rfl⟩ := Nat.exists_eq_add_of_le' (show 1 ≤ fuel by omega)
    simp only [render_loop, cut_eq_some_iff.mpr hopen, cut_eq_some_iff.mpr hclose, fill]
    congr
    funext found
    cases found with
    | none => rfl
    | some s => exact ih (by omega) _

theorem render_eq_fill (lookup : Lookup σ) {template : String} {pieces : List Piece} {ending : Ending}
    (h : Scans template.toList pieces ending) : render template lookup = fill lookup pieces ending "" :=
  render_loop_eq_fill lookup h (Nat.le_refl _) ""

/-- Records the keys that it is asked for, and knows each of them. -/
def recorder : Lookup (List String) := fun key => do
  modify fun keys => keys ++ [key]
  return some ""

/-- The keys that `render` looks up as long as each of them is found. -/
def looked_up (template : String) : List String :=
  ((render template recorder).run []).2

theorem fill_recorder (pieces : List Piece) (ending : Ending) (out : String) (keys : List String) :
    ((fill recorder pieces ending out).run keys).2 = keys ++ pieces.map Piece.key := by
  induction pieces generalizing out keys with
  | nil => cases ending <;> simp [fill] <;> rfl
  | cons piece pieces ih =>
    have hstep : (fill recorder (piece :: pieces) ending out).run keys =
        (fill recorder pieces ending (out ++ String.ofList piece.before ++ "")).run (keys ++ [piece.key]) := rfl
    rw [hstep, ih, List.map_cons, List.append_assoc, List.singleton_append]

theorem looked_up_eq {template : String} {pieces : List Piece} {ending : Ending}
    (h : Scans template.toList pieces ending) : looked_up template = pieces.map Piece.key := by
  rw [looked_up, render_eq_fill recorder h, fill_recorder, List.nil_append]

end Rendering

section Json

variable {crates : Crates} {vars : List (String × Value)} {pieces : List Piece} {ending : Ending} {template : String}

/-- The placeholder names a variable whose scalar form is the text. -/
def Fills (crates : Crates) (vars : List (String × Value)) (piece : Piece) (text : String) : Prop :=
  ∃ value, (Value.object vars).get piece.key = some value ∧ scalar crates value = some text

/-- The template with a text for each of its placeholders. -/
def weave : List Piece → List String → List Char → String
  | piece :: pieces, text :: texts, rest => String.ofList piece.before ++ (text ++ weave pieces texts rest)
  | _, _, rest => String.ofList rest

/-- What `render_json_top_scalars` does with the placeholders. -/
def fill_json (crates : Crates) (vars : List (String × Value)) (pieces : List Piece) (ending : Ending) (out : String) :
    Except TemplateError String :=
  ((fill (fun key => ExceptT.mk (pure (top_scalar crates vars key))) pieces ending out).run ()).1

theorem render_json_eq (h : Scans template.toList pieces ending) :
    render_json_top_scalars crates template vars = fill_json crates vars pieces ending "" := by
  rw [render_json_top_scalars, render_eq_fill _ h]
  rfl

theorem fill_json_cons (piece : Piece) (out : String) :
    fill_json crates vars (piece :: pieces) ending out =
      match top_scalar crates vars piece.key with
      | .error e => .error e
      | .ok none => .error (.NotScalar piece.key)
      | .ok (some s) => fill_json crates vars pieces ending (out ++ String.ofList piece.before ++ s) := by
  rw [fill_json, fill]
  simp only [ExceptT.run, bind, ExceptT.bind, ExceptT.mk]
  rcases top_scalar crates vars piece.key with e | _ | s <;> rfl

theorem top_scalar_eq_some_iff {piece : Piece} {s : String} :
    top_scalar crates vars piece.key = .ok (some s) ↔ Fills crates vars piece s := by
  rw [top_scalar, Fills]
  cases hvalue : (Value.object vars).get piece.key with
  | none => simp
  | some value => simp

/-- The placeholders are filled when the template ends and each names a scalar. -/
theorem fill_json_ok_iff {out result : String} :
    fill_json crates vars pieces ending out = .ok result ↔ ∃ rest texts, ending = .text rest ∧
      List.Forall₂ (Fills crates vars) pieces texts ∧ result = out ++ weave pieces texts rest := by
  induction pieces generalizing out with
  | nil =>
    cases ending with
    | text rest =>
      constructor
      · intro h
        exact ⟨rest, [], rfl, .nil, (Except.ok.inj h).symm⟩
      · rintro ⟨rest', texts, hending, hfills, rfl⟩
        obtain rfl := Ending.text.inj hending
        cases hfills
        rfl
    | unterminated before after =>
      constructor
      · intro h
        cases h
      · rintro ⟨rest, texts, hending, -⟩
        cases hending
  | cons piece pieces ih =>
    rw [fill_json_cons]
    constructor
    · intro h
      split at h
      · cases h
      · cases h
      · next s hfound =>
        obtain ⟨rest, texts, hending, hfills, rfl⟩ := ih.mp h
        refine ⟨rest, s :: texts, hending, .cons (top_scalar_eq_some_iff.mp hfound) hfills, ?_⟩
        rw [weave, String.append_assoc, String.append_assoc]
    · rintro ⟨rest, texts, hending, hfills, rfl⟩
      cases hfills with
      | @cons _ s _ texts hfill hfills =>
        rw [top_scalar_eq_some_iff.mpr hfill]
        refine ih.mpr ⟨rest, texts, hending, hfills, ?_⟩
        rw [weave, String.append_assoc, String.append_assoc]

/-- A template renders to its text with the scalars in place of the placeholders. -/
theorem render_ok_iff {out : String} : render_json_top_scalars crates template vars = .ok out ↔
    ∃ pieces rest texts, Scans template.toList pieces (.text rest) ∧
      List.Forall₂ (Fills crates vars) pieces texts ∧ out = weave pieces texts rest := by
  obtain ⟨pieces, ending, hscan⟩ := exists_scan template.toList
  rw [render_json_eq hscan, fill_json_ok_iff]
  constructor
  · rintro ⟨rest, texts, rfl, hfills, rfl⟩
    exact ⟨pieces, rest, texts, hscan, hfills, by simp⟩
  · rintro ⟨pieces', rest, texts, hscan', hfills, rfl⟩
    obtain ⟨rfl, rfl⟩ := hscan.unique hscan'
    exact ⟨rest, texts, rfl, hfills, by simp⟩

/-- The placeholder names no variable, or one that is no scalar. -/
def Unfillable (crates : Crates) (vars : List (String × Value)) (piece : Piece) : Prop :=
  (Value.object vars).get piece.key = none ∨ ∃ value, (Value.object vars).get piece.key = some value ∧ scalar crates value = none

theorem not_unfillable_iff {piece : Piece} :
    ¬ Unfillable crates vars piece ↔ ∃ text, Fills crates vars piece text := by
  rw [Unfillable]
  unfold Fills
  cases hvalue : (Value.object vars).get piece.key with
  | none => simp
  | some value => cases hscalar : scalar crates value <;> simp [hscalar]

theorem exists_texts_iff :
    (∃ texts, List.Forall₂ (Fills crates vars) pieces texts) ↔ ∀ piece ∈ pieces, ¬ Unfillable crates vars piece := by
  induction pieces with
  | nil => exact iff_of_true ⟨[], .nil⟩ (by simp)
  | cons piece pieces ih =>
    rw [List.forall_mem_cons, ← ih, not_unfillable_iff]
    constructor
    · rintro ⟨_, hfills⟩
      cases hfills with
      | @cons _ text _ texts hfill hrest => exact ⟨⟨text, hfill⟩, texts, hrest⟩
    · rintro ⟨⟨text, hfill⟩, texts, hrest⟩
      exact ⟨text :: texts, .cons hfill hrest⟩

/-- Rendering fails when a placeholder is unterminated or cannot be filled, and only then. -/
theorem render_error_iff : (∃ e, render_json_top_scalars crates template vars = .error e) ↔
    ∃ pieces ending, Scans template.toList pieces ending ∧
      ((∃ before after, ending = .unterminated before after) ∨ ∃ piece ∈ pieces, Unfillable crates vars piece) := by
  obtain ⟨pieces, ending, hscan⟩ := exists_scan template.toList
  constructor
  · rintro ⟨e, herror⟩
    refine ⟨pieces, ending, hscan, ?_⟩
    cases ending with
    | unterminated before after => exact .inl ⟨before, after, rfl⟩
    | text rest =>
      right
      by_contra hnone
      obtain ⟨texts, hfills⟩ := exists_texts_iff.mpr fun piece hpiece hnot => hnone ⟨piece, hpiece, hnot⟩
      rw [render_ok_iff.mpr ⟨pieces, rest, texts, hscan, hfills, rfl⟩] at herror
      cases herror
  · rintro ⟨pieces', ending', hscan', hfaulty⟩
    cases hresult : render_json_top_scalars crates template vars with
    | error e => exact ⟨e, rfl⟩
    | ok out =>
      obtain ⟨pieces'', rest, texts, hscan'', hfills, -⟩ := render_ok_iff.mp hresult
      obtain ⟨rfl, rfl⟩ := hscan'.unique hscan''
      obtain ⟨before, after, hending⟩ | ⟨piece, hpiece, hnot⟩ := hfaulty
      · cases hending
      · exact absurd hnot (exists_texts_iff.mp ⟨texts, hfills⟩ piece hpiece)

/-- Only a key that a placeholder names can be missing. -/
theorem missing_key {k : String} (hscan : Scans template.toList pieces ending)
    (h : render_json_top_scalars crates template vars = .error (.MissingKey k)) :
    k ∈ pieces.map Piece.key ∧ (Value.object vars).get k = none := by
  rw [render_json_eq hscan] at h
  clear hscan
  generalize "" = out at h
  induction pieces generalizing out with
  | nil =>
    cases ending with
    | text rest => cases h
    | unterminated before after => cases h
  | cons piece pieces ih =>
    rw [fill_json_cons] at h
    split at h
    · next e hfound =>
      obtain rfl := Except.error.inj h
      rw [top_scalar] at hfound
      split at hfound
      · next hnone =>
        obtain rfl := TemplateError.MissingKey.inj (Except.error.inj hfound)
        exact ⟨List.mem_cons_self, hnone⟩
      · cases hfound
    · cases h
    · obtain ⟨hmem, hnone⟩ := ih _ h
      exact ⟨List.mem_cons_of_mem _ hmem, hnone⟩

end Json

end iac_core.template
