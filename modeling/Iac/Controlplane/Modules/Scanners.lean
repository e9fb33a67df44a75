import Iac.Collections.Fallible
import Iac.Controlplane.Modules
import Iac.Core.Template

open iac_core.template serde_json substring

namespace iac_controlplane.modules

section Scanning

variable {bytes : List Char} {a b : Char}

/-- The two characters at an index start what is left from there. -/
theorem pair_at_iff {i : Nat} : (bytes[i]? = some a ∧ bytes[i + 1]? = some b) ↔ [a, b] <+: bytes.drop i := by
  have hfirst : (bytes.drop i)[0]? = bytes[i]? := List.getElem?_drop
  have hsecond : (bytes.drop i)[1]? = bytes[i + 1]? := List.getElem?_drop
  rw [← hfirst, ← hsecond]
  obtain _ | ⟨c, _ | ⟨d, rest⟩⟩ := bytes.drop i
  · simp
  · simp
  · simp [List.cons_prefix_cons, eq_comm]

theorem not_pair_of_short {i : Nat} (h : ¬ i + 1 < bytes.length) : ¬ [a, b] <:+: bytes.drop i := by
  intro hpair
  have hlength := hpair.length_le
  rw [List.length_drop, List.length_cons, List.length_singleton] at hlength
  omega

theorem drop_eq_cons {i : Nat} (h : i < bytes.length) : ∃ c, bytes.drop i = c :: bytes.drop (i + 1) :=
  ⟨_, List.drop_eq_getElem_cons h⟩

/-- The inner loop stops at the first closing. -/
theorem find_closing_of_cut {fuel j : Nat} {inner rest : List Char}
    (h : FirstCut close_braces (bytes.drop j) inner rest) (hfuel : bytes.length ≤ j + fuel) :
    find_closing bytes fuel j = j + inner.length := by
  induction fuel generalizing j inner with
  | zero =>
    rw [List.drop_eq_nil_of_le (Nat.add_zero j ▸ hfuel)] at h
    exact absurd h.contained (by decide)
  | succ fuel ih =>
    have hshort : j + 1 < bytes.length := by
      by_contra hnot
      exact not_pair_of_short hnot h.contained
    rw [find_closing, if_pos hshort]
    by_cases hhere : [('\x7d' : Char), '\x7d'] <+: bytes.drop j
    · rw [if_pos (pair_at_iff.mpr hhere)]
      obtain ⟨tail, htail⟩ := hhere
      have hcut : FirstCut close_braces (bytes.drop j) [] tail := htail ▸ firstCut_of_prefix
      obtain ⟨rfl, -⟩ := h.unique hcut
      rfl
    · rw [if_neg (pair_at_iff.not.mpr hhere)]
      obtain ⟨c, hc⟩ := drop_eq_cons (show j < bytes.length by omega)
      rw [hc] at h hhere
      obtain ⟨inner', rfl, hcut⟩ := h.tail hhere
      rw [ih hcut (by omega), List.length_cons]
      omega

theorem find_closing_of_none {fuel j : Nat} (h : ¬ close_braces <:+: bytes.drop j)
    (hfuel : bytes.length ≤ j + fuel) : bytes.length ≤ find_closing bytes fuel j + 1 := by
  induction fuel generalizing j with
  | zero =>
    rw [find_closing]
    omega
  | succ fuel ih =>
    rw [find_closing]
    split_ifs with hshort hhere
    · have hstarts : close_braces <+: bytes.drop j := pair_at_iff.mp hhere
      exact absurd hstarts.isInfix h
    · obtain ⟨c, hc⟩ := drop_eq_cons (show j < bytes.length by omega)
      refine ih (fun hlater => h ?_) (by omega)
      rw [hc]
      exact hlater.trans (List.suffix_cons c _).isInfix
    · omega

/-- Without its first character, when no placeholder starts there, a text has the same keys. -/
theorem scan_tail {c : Char} {text : List Char} {pieces : List Piece} {ending : Ending}
    (hnot : ¬ open_braces <+: c :: text) (h : Scans (c :: text) pieces ending) :
    ∃ pieces' ending', Scans text pieces' ending' ∧ pieces'.map Piece.key = pieces.map Piece.key := by
  cases h with
  | text hnone =>
    refine ⟨[], _, .text fun hlater => hnone ?_, rfl⟩
    exact hlater.trans (List.suffix_cons c _).isInfix
  | unterminated hopen hnone =>
    obtain ⟨before', rfl, hcut⟩ := hopen.tail hnot
    exact ⟨[], _, .unterminated hcut hnone, rfl⟩
  | placeholder hopen hclose hrest =>
    obtain ⟨before', rfl, hcut⟩ := hopen.tail hnot
    exact ⟨_, _, .placeholder hcut hclose hrest, rfl⟩

theorem isEmpty_trim_iff {inner : List Char} : (str.trim inner).isEmpty = true ↔ key_of inner = "" := by
  rw [List.isEmpty_iff, key_of, ← String.toList_inj, String.toList_ofList]
  rfl

/-- The outer loop collects the keys that are not blank. -/
theorem variables_from_eq {fuel i : Nat} {out : List String} {pieces : List Piece} {ending : Ending}
    (h : Scans (bytes.drop i) pieces ending) (hfuel : bytes.length ≤ i + fuel) :
    variables_from bytes fuel i out = out ++ (pieces.map Piece.key).filter (· ≠ "") := by
  induction fuel generalizing i out pieces ending with
  | zero =>
    rw [List.drop_eq_nil_of_le (Nat.add_zero i ▸ hfuel)] at h
    obtain ⟨rfl, -⟩ := h.unique (.text (by decide))
    simp [variables_from]
  | succ fuel ih =>
    rw [variables_from]
    by_cases hshort : i + 1 < bytes.length
    · rw [if_pos hshort]
      by_cases hhere : [('\x7b' : Char), '\x7b'] <+: bytes.drop i
      · rw [if_pos (pair_at_iff.mpr hhere)]
        obtain ⟨tail, htail⟩ := hhere
        have hcut : FirstCut open_braces (bytes.drop i) [] tail := htail ▸ firstCut_of_prefix
        have hdrop : bytes.drop (i + 2) = tail := by
          rw [← List.drop_drop, ← htail]
          rfl
        cases h with
        | text hnone => exact absurd hcut.contained hnone
        | unterminated hopen hnone =>
          obtain ⟨-, rfl⟩ := hcut.unique hopen
          rw [← hdrop] at hnone
          have hfar := find_closing_of_none hnone (show bytes.length ≤ i + 2 + bytes.length by omega)
          simp only [if_pos hfar]
          simp
        | @placeholder _ before after inner rest' pieces _ hopen hclose hrest =>
          obtain ⟨-, rfl⟩ := hcut.unique hopen
          rw [← hdrop] at hclose
          have hat := find_closing_of_cut hclose (show bytes.length ≤ i + 2 + bytes.length by omega)
          have hlength := hclose.length
          have htwo : close_braces.length = 2 := rfl
          rw [List.length_drop, htwo] at hlength
          have hrest' : bytes.drop (i + 2 + inner.length + 2) = rest' := by
            rw [← List.drop_drop, ← List.drop_drop, hclose.split, List.drop_left]
            rfl
          have hinner : (bytes.drop (i + 2)).take (i + 2 + inner.length - (i + 2)) = inner := by
            rw [Nat.add_sub_cancel_left, hclose.split, List.take_left]
          have hnear : ¬ bytes.length ≤ i + 2 + inner.length + 1 := by omega
          simp only [hat, if_neg hnear, hinner]
          rw [ih (hrest'.symm ▸ hrest) (by omega), List.map_cons]
          by_cases hblank : key_of inner = ""
          · rw [if_pos (isEmpty_trim_iff.mpr hblank), List.filter_cons_of_neg (by simp [Piece.key, hblank])]
          · rw [if_neg (isEmpty_trim_iff.not.mpr hblank), List.filter_cons_of_pos (by simp [Piece.key, hblank]),
              List.append_assoc]
            rfl
      · rw [if_neg (pair_at_iff.not.mpr hhere)]
        obtain ⟨c, hc⟩ := drop_eq_cons (show i < bytes.length by omega)
        rw [hc] at h hhere
        obtain ⟨pieces', ending', hscan, hkeys⟩ := scan_tail hhere h
        rw [ih hscan (by omega), hkeys]
    · rw [if_neg hshort]
      obtain ⟨rfl, -⟩ := h.unique (.text (not_pair_of_short hshort))
      simp

end Scanning

/-- The variables are the keys that rendering looks up, without the blank ones. -/
theorem template_variables_eq (template : String) :
    template_variables template = (looked_up template).filter (· ≠ "") := by
  obtain ⟨pieces, ending, hscan⟩ := exists_scan template.toList
  rw [looked_up_eq hscan]
  have hall : variables_from template.toList template.toList.length 0 [] =
      [] ++ (pieces.map Piece.key).filter (· ≠ "") :=
    variables_from_eq hscan (Nat.le_of_eq (Nat.zero_add _).symm)
  exact hall

section Validation

variable {alphanumeric : Char → Bool} {m : Module} {crates : Crates}

theorem validate_variables_ok {parameters : List ModuleParameter} {vars : List String}
    (h : validate_variables parameters vars = .ok ()) {var : String} (hvar : var ∈ vars) :
    var ∈ RESERVED_VARS ∨ ∃ p ∈ parameters, p.name = var := by
  induction vars with
  | nil => cases hvar
  | cons first vars ih =>
    rw [validate_variables] at h
    split_ifs at h with hreserved hdeclared
    · obtain rfl | hlater := List.mem_cons.mp hvar
      · exact .inl hreserved
      · exact ih h hlater
    · obtain rfl | hlater := List.mem_cons.mp hvar
      · obtain ⟨p, hp, hname⟩ := List.any_eq_true.mp hdeclared
        exact .inr ⟨p, hp, by simpa using hname⟩
      · exact ih h hlater

/-- A template that passed validation uses reserved and declared variables only. -/
theorem variable_known (h : m.validate alphanumeric = .ok ()) {var : String}
    (hvar : var ∈ template_variables m.template) : var ∈ RESERVED_VARS ∨ ∃ p ∈ m.parameters, p.name = var := by
  rw [Module.validate] at h
  split_ifs at h
  obtain ⟨-, -, hvariables⟩ := fallible.bind_eq_ok_iff.mp h
  exact validate_variables_ok hvariables hvar

theorem get_insert_parameters {spec vars vars' : List (String × Value)} {parameters : List ModuleParameter}
    (h : insert_parameters m spec parameters vars = .ok vars') {key : String}
    (hkey : (Value.object vars).get key ≠ none ∨ ∃ p ∈ parameters, p.name = key) :
    (Value.object vars').get key ≠ none := by
  induction parameters generalizing vars with
  | nil =>
    obtain rfl := Except.ok.inj h
    obtain hfound | ⟨p, hp, -⟩ := hkey
    · exact hfound
    · cases hp
  | cons p parameters ih =>
    obtain ⟨v, -, hrest⟩ := fallible.bind_eq_ok_iff.mp h
    refine ih hrest ?_
    by_cases hself : key = p.name
    · left
      rw [hself, Value.get_insert_field_self]
      exact Option.some_ne_none v
    · obtain hfound | ⟨q, hq, hname⟩ := hkey
      · left
        rwa [Value.get_insert_field_of_ne _ _ _ hself]
      · obtain rfl | hlater := List.mem_cons.mp hq
        · exact absurd hname.symm hself
        · exact .inr ⟨q, hlater, hname⟩

/-- The reserved variables and the declared ones have a value in every expansion. -/
theorem get_module_vars {raw : Value} {vars : List (String × Value)} (h : module_vars m raw = .ok vars) {key : String}
    (hkey : key ∈ RESERVED_VARS ∨ ∃ p ∈ m.parameters, p.name = key) : (Value.object vars).get key ≠ none := by
  obtain ⟨metadata, -, h⟩ := fallible.bind_eq_ok_iff.mp h
  obtain ⟨name, -, h⟩ := fallible.bind_eq_ok_iff.mp h
  obtain ⟨vars', hinserted, h⟩ := fallible.bind_eq_ok_iff.mp h
  obtain ⟨-, -, hvars⟩ := fallible.bind_eq_ok_iff.mp h
  obtain rfl := Except.ok.inj hvars
  refine get_insert_parameters hinserted (hkey.imp_left fun hreserved => ?_)
  obtain rfl | hlater := List.mem_cons.mp hreserved
  · rw [Value.get_insert_field_of_ne _ _ _ (by decide), Value.get_insert_field_self]
    exact Option.some_ne_none _
  · rw [List.mem_singleton.mp hlater, Value.get_insert_field_self]
    exact Option.some_ne_none _

/-- Rendering replaces the placeholders by scalars and fails otherwise; the
module check knows the keys it looks up, so that none is unknown in an expansion. -/
structure ScannersAgree (crates : Crates) (alphanumeric : Char → Bool) (m : Module) : Prop where
  renders : ∀ vars out, render_json_top_scalars crates m.template vars = .ok out ↔
    ∃ pieces rest texts, Scans m.template.toList pieces (.text rest) ∧
      List.Forall₂ (Fills crates vars) pieces texts ∧ out = weave pieces texts rest
  fails : ∀ vars, (∃ e, render_json_top_scalars crates m.template vars = .error e) ↔
    ∃ pieces ending, Scans m.template.toList pieces ending ∧
      ((∃ before after, ending = .unterminated before after) ∨ ∃ piece ∈ pieces, Unfillable crates vars piece)
  keys : template_variables m.template = looked_up m.template
  known : m.validate alphanumeric = .ok () → ∀ raw vars, module_vars m raw = .ok vars →
    ∀ key, render_json_top_scalars crates m.template vars ≠ .error (.MissingKey key)

/-- The scanners agree on a template exactly when it has no blank placeholder. -/
theorem scanners_agree_iff : ScannersAgree crates alphanumeric m ↔
    ∀ pieces ending, Scans m.template.toList pieces ending → ∀ piece ∈ pieces, str.trim piece.inner ≠ [] := by
  obtain ⟨pieces, ending, hscan⟩ := exists_scan m.template.toList
  have hkeys := looked_up_eq hscan
  have hblank : ∀ piece : Piece, piece.key = "" ↔ str.trim piece.inner = [] := fun piece =>
    isEmpty_trim_iff.symm.trans List.isEmpty_iff
  have hvariables : template_variables m.template = looked_up m.template ↔
      ∀ piece ∈ pieces, str.trim piece.inner ≠ [] := by
    rw [template_variables_eq, List.filter_eq_self, hkeys]
    simp only [List.forall_mem_map, decide_eq_true_eq, ne_eq, hblank]
  constructor
  · intro hagree pieces' ending' hscan'
    obtain ⟨rfl, rfl⟩ := hscan.unique hscan'
    exact hvariables.mp hagree.keys
  · intro hfilled
    have hsame := hvariables.mpr (hfilled pieces ending hscan)
    refine ⟨fun vars out => render_ok_iff, fun vars => render_error_iff, hsame, ?_⟩
    intro hvalid raw vars hvars key hmissing
    obtain ⟨hmem, hnone⟩ := missing_key hscan hmissing
    rw [← hkeys, ← hsame] at hmem
    exact get_module_vars hvars (variable_known hvalid hmem) hnone

/-- A module whose only placeholder is blank. -/
def blank_module : Module := ⟨"blank", [], "- kind: {{ }}"⟩

def blank_resource : Value :=
  json [("kind", .string "blank"), ("metadata", json [("name", .string "x")])]

/-- It passes validation, and fails in its first expansion. -/
theorem blank_placeholder_is_accepted :
    blank_module.validate Char.isAlphanum = .ok () ∧
      expand_module (.on []) (fun _ => .ok (.sequence [])) blank_module blank_resource =
        .error (.BadRequest "blank: template render: template variable {{  }} not found") ∧
      ¬ ScannersAgree (.on []) Char.isAlphanum blank_module := by
  refine ⟨by decide, by decide +kernel, fun hagree => ?_⟩
  have hvariables := hagree.keys
  rw [show template_variables blank_module.template = [] by decide,
    show looked_up blank_module.template = [""] by decide +kernel] at hvariables
  cases hvariables

end Validation

end iac_controlplane.modules
