import Iac.Collections.Fallible
import Iac.Collections.Glob
import Iac.Collections.Paths
import Iac.Core.Text
import Iac.Core.Utf8

open glob

namespace iac_cli.inventory

structure HostOverrides where
  user : Option String := none
  port : Option UInt16 := none
  identity_file : Option (List Char) := none
  remote_iac : Option String := none

structure HostEntry where
  host : String
  user : Option String := none
  port : Option UInt16 := none
  identity_file : Option (List Char) := none
  remote_iac : Option String := none
  label : Option String := none

/-- The groups by name. -/
structure InventoryFile where
  defaults : HostOverrides := {}
  groups : List (String × List HostEntry) := []

structure SshTarget where
  label : String
  user : String
  host : String
  port : UInt16
  identity_file : Option (List Char)
  remote_iac : Option String
  control_dir : Option (List Char)

/-- The environment of the command. -/
abbrev Env := String → Option String

def expand_tilde (env : Env) (file : List Char) : List Char :=
  match file, env "HOME" with
  | '~' :: '/' :: rest, some home => path.join home.toList rest
  | _, _ => file

def InventoryFile.materialize (env : Env) (inv : InventoryFile) (h : HostEntry) : SshTarget :=
  let user := (h.user.or inv.defaults.user).getD (((env "USER").or (env "USERNAME")).getD "root")
  { label := h.label.getD (user ++ "@" ++ h.host)
    user
    host := h.host
    port := (h.port.or inv.defaults.port).getD 22
    identity_file := (h.identity_file.or inv.defaults.identity_file).map (expand_tilde env)
    remote_iac := h.remote_iac.or inv.defaults.remote_iac
    control_dir := none }

/-- The byte `*`. -/
def star : UInt8 := 42

/-- Where `glob_match_inner` stands: in the pattern, in the text, and the last
star with the text it has taken so far. -/
structure Cursor where
  i : Nat := 0
  j : Nat := 0
  star_pat : Option Nat := none
  star_text : Nat := 0
  star_text_le : star_text ≤ j := by decide

/-- One turn of the loop, none where it returns false. -/
def Cursor.step (pat text : List UInt8) (c : Cursor) : Option Cursor :=
  if pat[c.i]? = some star then
    some { i := c.i + 1, j := c.j, star_pat := some c.i, star_text := c.j, star_text_le := Nat.le_refl _ }
  else if pat[c.i]?.isSome ∧ pat[c.i]? = text[c.j]? then
    some { c with i := c.i + 1, j := c.j + 1, star_text_le := Nat.le_succ_of_le c.star_text_le }
  else
    c.star_pat.map fun sp =>
      { i := sp + 1, j := c.star_text + 1, star_pat := some sp, star_text := c.star_text + 1, star_text_le := Nat.le_refl _ }

/-- The last star gets ahead in the text, or stays while pattern and text are consumed. -/
theorem Cursor.step_advances {pat text : List UInt8} {c next : Cursor} (hj : c.j < text.length)
    (h : c.step pat text = some next) :
    Prod.Lex (· < ·) (· < ·) (text.length - next.star_text, pat.length - next.i + (text.length - next.j))
      (text.length - c.star_text, pat.length - c.i + (text.length - c.j)) := by
  have hle := c.star_text_le
  unfold step at h
  split_ifs at h with hstar hsame
  · obtain rfl := Option.some.inj h
    have hi := (List.getElem?_eq_some_iff.mp hstar).1
    obtain hlt | heq := Nat.lt_or_eq_of_le hle
    · exact .left _ _ (by simp only; omega)
    · simp only [heq]
      exact .right _ (by omega)
  · obtain rfl := Option.some.inj h
    have hi : c.i < pat.length := by simpa using hsame.1
    exact .right _ (by simp only; omega)
  · obtain ⟨sp, -, rfl⟩ := Option.map_eq_some_iff.mp h
    exact .left _ _ (by simp only; omega)

def glob_loop (pat text : List UInt8) (c : Cursor) : Bool :=
  if _hj : c.j < text.length then
    match _h : c.step pat text with
    | some next => glob_loop pat text next
    | none => false
  else (pat.drop c.i).dropWhile (· == star) == []
termination_by (text.length - c.star_text, pat.length - c.i + (text.length - c.j))
decreasing_by exact Cursor.step_advances _hj _h

def glob_match_inner (pat text : List UInt8) : Bool := glob_loop pat text {}

def glob_match (pattern text : String) : Bool := glob_match_inner (as_bytes pattern) (as_bytes text)

inductive Pattern where
  | Exact (want : String)
  | Glob (pattern : String)

def Pattern.from_token (s : List Char) : Pattern :=
  if '*' ∈ s then .Glob (String.ofList s) else .Exact (String.ofList s)

def Pattern.matches_host (h : HostEntry) : Pattern → Bool
  | .Exact want => h.host == want || h.label == some want
  | .Glob pattern => glob_match pattern h.host || h.label.any (glob_match pattern)

structure LimitExpr where
  includes : List Pattern := []
  excludes : List Pattern := []

/-- One entry of the list added to what was read before it. -/
def LimitExpr.read (expr : LimitExpr) (raw : List Char) : Except String LimitExpr :=
  match str.trim raw with
  | [] => .ok expr
  | '!' :: rest =>
    if str.trim rest = [] then .error "--limit: empty pattern after `!`"
    else .ok { expr with excludes := expr.excludes ++ [.from_token (str.trim rest)] }
  | token => .ok { expr with includes := expr.includes ++ [.from_token token] }

def LimitExpr.parse (limit : Option String) : Except String LimitExpr :=
  match (limit.map fun s => str.trim s.toList).filter (· ≠ []) with
  | none => .ok {}
  | some s => do
    let expr ← (s.splitOn ',').foldlM LimitExpr.read {}
    return if expr.includes.isEmpty && !expr.excludes.isEmpty then { expr with includes := [.Glob "*"] } else expr

def LimitExpr.matches (expr : LimitExpr) (h : HostEntry) : Bool :=
  if expr.includes.isEmpty && expr.excludes.isEmpty then true
  else expr.includes.any (Pattern.matches_host h) && !expr.excludes.any (Pattern.matches_host h)

/-- The targets that `--group` and `--limit` name. -/
def InventoryFile.resolve (env : Env) (inv : InventoryFile) (group : String) (limit : Option String) :
    Except String (List SshTarget) := do
  match inv.groups.lookup group with
  | none => throw ("group " ++ str.debug group ++ " not found in inventory")
  | some hosts =>
    let expr ← LimitExpr.parse limit
    let out := (hosts.filter expr.matches).map (inv.materialize env)
    match limit with
    | some lim => if out.isEmpty then throw ("no host in group " ++ str.debug group ++ " matched --limit " ++ str.debug lim)
    | none => pure ()
    return out

section Glob

variable {pat text : List UInt8} {c next : Cursor}

/-- What the loop still looks for: the rest of the pattern here, or after a longer star. -/
def Cursor.Reaches (pat text : List UInt8) (c : Cursor) : Prop :=
  Matches star (pat.drop c.i) (text.drop c.j) ∨
    ∃ sp ∈ c.star_pat, Matches star (pat.drop sp) (text.drop (c.star_text + 1))

/-- Between the last star and the cursor the pattern is literal, as long as the text consumed since. -/
def Cursor.Sound (pat : List UInt8) (c : Cursor) : Prop :=
  ∀ sp ∈ c.star_pat, ∃ seg, star ∉ seg ∧ c.star_text + seg.length = c.j ∧ pat.drop sp = star :: (seg ++ pat.drop c.i)

/-- What a longer star reaches lies ahead of the cursor. -/
theorem Cursor.Sound.ahead {sp : Nat} (h : c.Sound pat) (hsp : sp ∈ c.star_pat)
    (hmatch : Matches star (pat.drop sp) (text.drop (c.star_text + 1))) :
    ∃ k, c.j < k ∧ Matches star (pat.drop c.i) (text.drop k) := by
  obtain ⟨seg, hseg, hlength, hdrop⟩ := h sp hsp
  rw [hdrop] at hmatch
  obtain ⟨front, back, htext, hback⟩ := matches_star.mp hmatch
  obtain ⟨rest, rfl, hrest⟩ := (matches_append hseg).mp hback
  refine ⟨c.star_text + 1 + (front ++ seg).length, by rw [List.length_append]; omega, ?_⟩
  rw [← List.drop_drop, htext, ← List.append_assoc, List.drop_left]
  exact hrest

theorem Cursor.reaches_at_star (hsound : c.Sound pat) (hstar : pat.drop c.i = star :: pat.drop (c.i + 1)) :
    c.Reaches pat text ↔ Matches star (pat.drop c.i) (text.drop c.j) := by
  refine or_iff_left_of_imp ?_
  rintro ⟨sp, hsp, hmatch⟩
  obtain ⟨k, hk, hahead⟩ := hsound.ahead hsp hmatch
  rw [hstar] at hahead ⊢
  have hsplit : (text.drop c.j).take (k - c.j) ++ text.drop k = text.drop c.j := by
    conv_rhs => rw [← List.take_append_drop (k - c.j) (text.drop c.j), List.drop_drop]
    rw [Nat.add_sub_cancel' (Nat.le_of_lt hk)]
  exact hsplit ▸ hahead.extend _

/-- A turn of the loop keeps what is looked for, and ends it only where nothing is found. -/
theorem Cursor.step_reaches (hsound : c.Sound pat) (hj : c.j < text.length) :
    match c.step pat text with
    | some next => next.Sound pat ∧ (c.Reaches pat text ↔ next.Reaches pat text)
    | none => ¬ c.Reaches pat text := by
  have htext : text.drop c.j = text[c.j] :: text.drop (c.j + 1) := List.drop_eq_getElem_cons hj
  unfold step
  split_ifs with hstar hsame
  · have hdrop : pat.drop c.i = star :: pat.drop (c.i + 1) := by
      obtain ⟨hi, hget⟩ := List.getElem?_eq_some_iff.mp hstar
      rw [List.drop_eq_getElem_cons hi, hget]
    refine ⟨?_, ?_⟩
    · rintro sp hsp
      obtain rfl := Option.some.inj hsp
      exact ⟨[], by simp, by simp, hdrop⟩
    · rw [reaches_at_star hsound hdrop, hdrop, matches_star_iff_drop]
      simp [Reaches, hdrop]
  · obtain ⟨hsome, heq⟩ := hsame
    rw [List.getElem?_eq_getElem hj] at heq
    obtain ⟨hi, hget⟩ := List.getElem?_eq_some_iff.mp heq
    have hne : text[c.j] ≠ star := fun h => hstar (h ▸ heq)
    have hdrop : pat.drop c.i = text[c.j] :: pat.drop (c.i + 1) := by
      rw [List.drop_eq_getElem_cons hi, hget]
    refine ⟨?_, ?_⟩
    · rintro sp hsp
      obtain ⟨seg, hseg, hlength, hspell⟩ := hsound sp hsp
      refine ⟨seg ++ [text[c.j]], by simp [hseg, Ne.symm hne], by simp; omega, ?_⟩
      rw [hspell, hdrop]
      simp
    · rw [Reaches, Reaches, hdrop, htext, matches_cons_cons hne]
      simp
  · have hhere : ¬ Matches star (pat.drop c.i) (text.drop c.j) := by
      rw [htext]
      rcases hp : pat[c.i]? with _ | p
      · rw [List.drop_eq_nil_of_le (List.getElem?_eq_none_iff.mp hp), Matches]
        exact List.cons_ne_nil _ _
      · obtain ⟨hi, rfl⟩ := List.getElem?_eq_some_iff.mp hp
        rw [List.drop_eq_getElem_cons hi, matches_cons_cons fun h => hstar (hp.trans (congrArg some h))]
        rintro ⟨heq, -⟩
        exact hsame ⟨by simp [hi], by rw [hp, heq, List.getElem?_eq_getElem hj]⟩
    cases hsp : c.star_pat with
    | none => simp [Reaches, hhere, hsp]
    | some sp =>
      have hdrop : pat.drop sp = star :: pat.drop (sp + 1) := by
        obtain ⟨seg, -, -, hspell⟩ := hsound sp hsp
        rw [← List.drop_drop, hspell]
        rfl
      refine ⟨?_, ?_⟩
      · rintro sp' hsp'
        obtain rfl := Option.some.inj hsp'
        exact ⟨[], by simp, by simp, hdrop⟩
      · rw [Reaches, or_iff_right hhere, Reaches]
        simp only [hsp, Option.mem_some_iff, exists_eq_left']
        rw [hdrop, matches_star_iff_drop, List.drop_drop]

theorem glob_loop_iff (hsound : c.Sound pat) : glob_loop pat text c = true ↔ c.Reaches pat text := by
  fun_induction glob_loop pat text c with
  | case1 c hj next hstep ih =>
    have hreaches := c.step_reaches hsound hj
    rw [hstep] at hreaches
    rw [ih hreaches.1, hreaches.2]
  | case2 c hj hstep =>
    have hreaches := c.step_reaches hsound hj
    rw [hstep] at hreaches
    simpa using hreaches
  | case3 c hj =>
    have hend (k : Nat) (hk : c.j ≤ k) : text.drop k = [] := List.drop_eq_nil_of_le (by omega)
    have hnil : c.Reaches pat text ↔ Matches star (pat.drop c.i) [] := by
      rw [Cursor.Reaches, hend c.j le_rfl]
      refine or_iff_left_of_imp ?_
      rintro ⟨sp, hsp, hmatch⟩
      obtain ⟨k, hk, hahead⟩ := hsound.ahead hsp hmatch
      exact hend k hk.le ▸ hahead
    rw [hnil, matches_nil]
    simp

/-- The loop finds whether the text splits as the pattern says. -/
theorem glob_match_inner_iff : glob_match_inner pat text = true ↔ Matches star pat text := by
  have hstart : Cursor.Sound pat {} := by
    rintro sp hsp
    cases hsp
  rw [glob_match_inner, glob_loop_iff hstart, Cursor.Reaches]
  simp

theorem glob_match_iff {pattern text : String} :
    glob_match pattern text = true ↔ Matches '*' pattern.toList text.toList := by
  rw [glob_match, glob_match_inner_iff, utf8.as_bytes_eq, utf8.as_bytes_eq]
  exact matches_utf8

end Glob

section Limit

variable {lim : String} {limit : Option String} {h : HostEntry} {expr : LimitExpr}

def Blank (lim : String) : Prop := str.trim lim.toList = []

def pieces (lim : String) : List (List Char) := (str.trim lim.toList).splitOn ','

/-- The pattern of an entry that includes. -/
def inclusion (raw : List Char) : Option (List Char) :=
  match str.trim raw with
  | [] | '!' :: _ => none
  | token => some token

/-- The pattern of an entry that excludes. -/
def exclusion (raw : List Char) : Option (List Char) :=
  match str.trim raw with
  | '!' :: rest => some (str.trim rest)
  | _ => none

def inclusions (lim : String) : List (List Char) := (pieces lim).filterMap inclusion

def exclusions (lim : String) : List (List Char) := (pieces lim).filterMap exclusion

/-- The pattern matches the host or its label. -/
def Names (pattern : List Char) (h : HostEntry) : Prop :=
  Matches '*' pattern h.host.toList ∨ ∃ label ∈ h.label, Matches '*' pattern label.toList

/-- The host matches an inclusion, or there are exclusions only, and it matches no exclusion. -/
def Selected (lim : String) (h : HostEntry) : Prop :=
  ((∃ p ∈ inclusions lim, Names p h) ∨ (inclusions lim = [] ∧ exclusions lim ≠ [])) ∧ ∀ p ∈ exclusions lim, ¬ Names p h

theorem matches_host_iff {token : List Char} : (Pattern.from_token token).matches_host h = true ↔ Names token h := by
  unfold Pattern.from_token Names
  split_ifs with hstar
  · simp [Pattern.matches_host, glob_match_iff, Option.any_eq_true]
  · have hspell (s : String) : s = String.ofList token ↔ s.toList = token := by
      rw [← String.toList_inj, String.toList_ofList]
    simp only [Pattern.matches_host, Bool.or_eq_true, beq_iff_eq, matches_literal hstar, hspell h.host]
    refine or_congr_right ⟨fun hlabel => ⟨_, hlabel, String.toList_ofList⟩, ?_⟩
    rintro ⟨label, hlabel, hliteral⟩
    rw [← (hspell label).mpr hliteral]
    exact hlabel

instance (pattern : List Char) (h : HostEntry) : Decidable (Names pattern h) := decidable_of_iff _ matches_host_iff

instance (lim : String) (h : HostEntry) : Decidable (Selected lim h) :=
  inferInstanceAs (Decidable (((∃ p ∈ inclusions lim, Names p h) ∨ (inclusions lim = [] ∧ exclusions lim ≠ [])) ∧
    ∀ p ∈ exclusions lim, ¬ Names p h))

theorem read_eq (start : LimitExpr) (raw : List Char) : LimitExpr.read start raw =
    if exclusion raw = some [] then .error "--limit: empty pattern after `!`"
    else .ok ⟨start.includes ++ (inclusion raw).toList.map .from_token,
      start.excludes ++ (exclusion raw).toList.map .from_token⟩ := by
  unfold LimitExpr.read inclusion exclusion
  obtain _ | ⟨c, rest⟩ := str.trim raw
  · simp
  · by_cases hc : c = '!'
    · subst hc
      split_ifs with hrest <;> simp_all
    · simp [hc]

/-- The entries are collected in order; an exclusion must not be empty. -/
theorem read_ok_iff {raws : List (List Char)} {start : LimitExpr} : raws.foldlM LimitExpr.read start = .ok expr ↔
    [] ∉ raws.filterMap exclusion ∧
      expr = ⟨start.includes ++ (raws.filterMap inclusion).map .from_token,
        start.excludes ++ (raws.filterMap exclusion).map .from_token⟩ := by
  induction raws generalizing start with
  | nil =>
    simp only [List.foldlM_nil, List.filterMap_nil, List.not_mem_nil, not_false_eq_true, true_and, List.map_nil,
      List.append_nil]
    exact ⟨fun h => (Except.ok.inj h).symm, fun h => congrArg Except.ok h.symm⟩
  | cons raw raws ih =>
    rw [List.foldlM_cons, read_eq]
    split_ifs with hempty
    · refine iff_of_false (by rintro ⟨⟩) ?_
      rintro ⟨hmem, -⟩
      exact hmem (List.mem_filterMap.mpr ⟨raw, List.mem_cons_self, hempty⟩)
    · change raws.foldlM LimitExpr.read _ = .ok expr ↔ _
      rw [ih]
      cases hin : inclusion raw <;> cases hex : exclusion raw <;> simp_all

/-- A limit with an entry is parsed to its patterns. -/
theorem parse_ok_iff (hblank : ¬ Blank lim) : LimitExpr.parse (some lim) = .ok expr ↔
    [] ∉ exclusions lim ∧ expr = ⟨if inclusions lim = [] ∧ exclusions lim ≠ [] then [.Glob "*"]
      else (inclusions lim).map .from_token, (exclusions lim).map .from_token⟩ := by
  have hparse : LimitExpr.parse (some lim) = (do
      let expr ← (pieces lim).foldlM LimitExpr.read {}
      return if expr.includes.isEmpty && !expr.excludes.isEmpty then { expr with includes := [.Glob "*"] } else expr) := by
    rw [LimitExpr.parse, Option.map_some, Option.filter_some,
      if_pos (decide_eq_true (show str.trim lim.toList ≠ [] from hblank))]
    rfl
  rw [hparse, fallible.bind_eq_ok_iff]
  have hstar (includes excludes : List (List Char)) :
      (if (includes.map Pattern.from_token).isEmpty && !(excludes.map Pattern.from_token).isEmpty
        then LimitExpr.mk [.Glob "*"] (excludes.map .from_token)
        else ⟨includes.map .from_token, excludes.map .from_token⟩) =
      ⟨if includes = [] ∧ excludes ≠ [] then [.Glob "*"] else includes.map .from_token, excludes.map .from_token⟩ := by
    cases includes <;> cases excludes <;> simp
  simp only [read_ok_iff, List.nil_append]
  constructor
  · rintro ⟨read, ⟨hwell, rfl⟩, hexpr⟩
    exact ⟨hwell, (Except.ok.inj hexpr).symm.trans (hstar _ _)⟩
  · rintro ⟨hwell, rfl⟩
    exact ⟨_, ⟨hwell, rfl⟩, congrArg Except.ok (hstar _ _)⟩

theorem parse_none (h : ∀ lim ∈ limit, Blank lim) : LimitExpr.parse limit = .ok {} := by
  cases limit with
  | none => rfl
  | some lim =>
    have hblank : str.trim lim.toList = [] := h lim rfl
    rw [LimitExpr.parse, Option.map_some, hblank]
    rfl

theorem any_matches_iff {tokens : List (List Char)} :
    (tokens.map Pattern.from_token).any (Pattern.matches_host h) = true ↔ ∃ p ∈ tokens, Names p h := by
  simp only [List.any_map, List.any_eq_true, Function.comp, matches_host_iff]

theorem matches_any (h : HostEntry) : Pattern.matches_host h (.Glob "*") = true := by
  have hall : glob_match "*" h.host = true :=
    glob_match_iff.mpr (matches_star.mpr ⟨h.host.toList, [], (List.append_nil _).symm, rfl⟩)
  rw [Pattern.matches_host, hall, Bool.true_or]

/-- What the parsed limit matches. -/
theorem matches_iff (hblank : ¬ Blank lim) (hparse : LimitExpr.parse (some lim) = .ok expr)
    (hentry : ¬ (inclusions lim = [] ∧ exclusions lim = [])) : expr.matches h = true ↔ Selected lim h := by
  obtain ⟨-, rfl⟩ := (parse_ok_iff hblank).mp hparse
  have hnone : (!((exclusions lim).map Pattern.from_token).any (Pattern.matches_host h)) = true ↔
      ∀ p ∈ exclusions lim, ¬ Names p h := by
    rw [Bool.not_eq_true', ← Bool.not_eq_true, any_matches_iff]
    simp
  rw [Selected, LimitExpr.matches]
  by_cases hexclusions : inclusions lim = [] ∧ exclusions lim ≠ []
  · simp only [if_pos hexclusions]
    rw [if_neg (by simp), Bool.and_eq_true, hnone]
    simp [matches_any, hexclusions]
  · simp only [if_neg hexclusions]
    rw [if_neg (by simpa using hentry), Bool.and_eq_true, any_matches_iff, hnone, or_iff_left hexclusions]

/-- A limit without an entry. -/
def OnlySeparators (lim : String) : Prop := ¬ Blank lim ∧ inclusions lim = [] ∧ exclusions lim = []

theorem not_selected (hlim : OnlySeparators lim) : ¬ Selected lim h := by
  obtain ⟨-, hincludes, hexcludes⟩ := hlim
  simp [Selected, hincludes, hexcludes]

end Limit

section Resolve

variable {env : Env} {inv : InventoryFile} {group : String} {limit : Option String} {targets : List SshTarget}

/-- The targets for a group and a limit: all of its hosts without a limit or
with a blank one, else those selected, of which there must be one. -/
def Selection (env : Env) (inv : InventoryFile) (group : String) (limit : Option String) (targets : List SshTarget) : Prop :=
  ∃ hosts, inv.groups.lookup group = some hosts ∧
    (((∀ lim ∈ limit, Blank lim) ∧ targets = hosts.map (inv.materialize env)) ∨
      ∃ lim ∈ limit, ¬ Blank lim ∧ [] ∉ exclusions lim ∧
        targets = (hosts.filter (Selected lim)).map (inv.materialize env)) ∧
    (limit.isSome → targets ≠ [])

theorem resolve_ok_iff : inv.resolve env group limit = .ok targets ↔ ∃ hosts, inv.groups.lookup group = some hosts ∧
    ∃ expr, LimitExpr.parse limit = .ok expr ∧ targets = (hosts.filter expr.matches).map (inv.materialize env) ∧
      (limit.isSome → targets ≠ []) := by
  unfold InventoryFile.resolve
  cases hgroup : inv.groups.lookup group with
  | none => simp [throw, throwThe, MonadExceptOf.throw]
  | some hosts =>
    simp only [Option.some.injEq, exists_eq_left']
    rw [fallible.bind_eq_ok_iff]
    refine exists_congr fun expr => and_congr_right fun _ => ?_
    cases limit with
    | none => simp [pure, Except.pure, eq_comm]
    | some lim =>
      dsimp only
      split_ifs with hempty
      · refine iff_of_false (by rintro ⟨⟩) ?_
        rintro ⟨rfl, hsome⟩
        exact hsome rfl (List.isEmpty_iff.mp hempty)
      · rw [List.isEmpty_iff] at hempty
        constructor
        · intro hout
          obtain rfl := Except.ok.inj hout
          exact ⟨rfl, fun _ => hempty⟩
        · rintro ⟨rfl, -⟩
          rfl

/-- With an entry in the limit, or none wanted, the targets are those selected. -/
theorem resolve_selects (h : ∀ lim ∈ limit, ¬ OnlySeparators lim) :
    inv.resolve env group limit = .ok targets ↔ Selection env inv group limit targets := by
  rw [resolve_ok_iff, Selection]
  refine exists_congr fun hosts => and_congr_right fun _ => ?_
  by_cases hblank : ∀ lim ∈ limit, Blank lim
  · have hnot : ¬ ∃ lim ∈ limit, ¬ Blank lim ∧ [] ∉ exclusions lim ∧
        targets = (hosts.filter (Selected lim)).map (inv.materialize env) := by
      rintro ⟨lim, hlim, hentry, -⟩
      exact hentry (hblank lim hlim)
    have hall : hosts.filter (LimitExpr.matches {}) = hosts := List.filter_eq_self.mpr fun _ _ => rfl
    rw [parse_none hblank, or_iff_left hnot, and_iff_right hblank]
    simp [hall]
  · obtain ⟨lim, hlim, hentry⟩ : ∃ lim ∈ limit, ¬ Blank lim := by simpa using hblank
    obtain rfl : limit = some lim := hlim
    rw [or_iff_right (fun hall => hblank hall.1)]
    have hsome : ¬ (inclusions lim = [] ∧ exclusions lim = []) := fun hnone => h lim rfl ⟨hentry, hnone⟩
    constructor
    · rintro ⟨expr, hparse, rfl, hne⟩
      refine ⟨⟨lim, rfl, hentry, ((parse_ok_iff hentry).mp hparse).1, ?_⟩, hne⟩
      rw [List.filter_congr fun h _ => Bool.eq_iff_iff.mpr ((matches_iff hentry hparse hsome).trans decide_eq_true_iff.symm)]
    · rintro ⟨⟨lim', hlim', -, hwell, rfl⟩, hne⟩
      obtain rfl := Option.some.inj hlim'
      have hparse := (parse_ok_iff hentry).mpr ⟨hwell, rfl⟩
      refine ⟨_, hparse, ?_, hne⟩
      rw [List.filter_congr fun h _ => Bool.eq_iff_iff.mpr ((matches_iff hentry hparse hsome).trans decide_eq_true_iff.symm)]

/-- A limit of separators only selects the whole group. -/
theorem separators_select_all {lim : String} {hosts : List HostEntry} (hlim : OnlySeparators lim)
    (hgroup : inv.groups.lookup group = some hosts) (hhosts : hosts ≠ []) :
    inv.resolve env group (some lim) = .ok (hosts.map (inv.materialize env)) := by
  obtain ⟨hblank, hincludes, hexcludes⟩ := hlim
  have hparse : LimitExpr.parse (some lim) = .ok {} :=
    (parse_ok_iff hblank).mpr ⟨by simp [hexcludes], by simp [hincludes, hexcludes]⟩
  have hall : hosts.filter (LimitExpr.matches {}) = hosts := List.filter_eq_self.mpr fun _ _ => rfl
  exact resolve_ok_iff.mpr ⟨hosts, hgroup, {}, hparse, by rw [hall], fun _ => by simpa using hhosts⟩

/-- The matcher finds the splittings of a text, and a limit selects what it
names, exactly when it is not made of separators only. -/
theorem resolve_selects_iff {pattern text : String} :
    ((glob_match pattern text = true ↔ Matches '*' pattern.toList text.toList) ∧
      ∀ targets, inv.resolve env group limit = .ok targets ↔ Selection env inv group limit targets) ↔
    ¬ ((∃ lim ∈ limit, OnlySeparators lim) ∧ ∃ hosts, inv.groups.lookup group = some hosts ∧ hosts ≠ []) := by
  rw [and_iff_right glob_match_iff]
  constructor
  · rintro hselects ⟨⟨lim, hlim, hseparators⟩, hosts, hgroup, hhosts⟩
    obtain rfl : limit = some lim := hlim
    obtain ⟨hosts', -, hblank | ⟨lim', hlim', -, -, htargets⟩, -⟩ :=
      (hselects _).mp (separators_select_all hseparators hgroup hhosts)
    · exact hseparators.1 (hblank.1 lim rfl)
    · obtain rfl := Option.some.inj hlim'
      rw [List.filter_eq_nil_iff.mpr fun h _ => by simp [not_selected hseparators]] at htargets
      exact hhosts (List.map_eq_nil_iff.mp htargets)
  · intro hcondition targets
    by_cases hseparators : ∃ lim ∈ limit, OnlySeparators lim
    · obtain ⟨lim, hlim, -⟩ := id hseparators
      have hempty {hosts : List HostEntry} (hgroup : inv.groups.lookup group = some hosts) : hosts = [] := by
        by_contra hne
        exact hcondition ⟨hseparators, hosts, hgroup, hne⟩
      obtain rfl : limit = some lim := hlim
      refine iff_of_false (fun hresolve => ?_) ?_
      · obtain ⟨hosts, hgroup, expr, -, rfl, hne⟩ := resolve_ok_iff.mp hresolve
        exact hne rfl (by simp [hempty hgroup])
      · rintro ⟨hosts, hgroup, ⟨-, rfl⟩ | ⟨lim', -, -, -, rfl⟩, hne⟩
        · exact hne rfl (by simp [hempty hgroup])
        · exact hne rfl (by simp [hempty hgroup])
    · push Not at hseparators
      exact resolve_selects hseparators

def web : InventoryFile := { groups := [("web", [{ host := "10.0.0.1" }])] }

/-- A comma selects every host of the group. -/
theorem comma_selects_group : ¬ ∀ (env : Env) (inv : InventoryFile) (group : String) (limit : Option String)
    (targets : List SshTarget), inv.resolve env group limit = .ok targets ↔ Selection env inv group limit targets := by
  intro hall
  have hcomma : OnlySeparators "," := ⟨by unfold Blank; decide, by decide, by decide⟩
  have hresolve : web.resolve (fun _ => none) "web" (some ",") = .ok _ :=
    separators_select_all hcomma (show web.groups.lookup "web" = some _ from rfl) (List.cons_ne_nil _ _)
  obtain ⟨hosts, -, ⟨hblank, -⟩ | ⟨lim, hlim, -, -, htargets⟩, -⟩ := (hall _ _ _ _ _).mp hresolve
  · exact hcomma.1 (hblank "," rfl)
  · obtain rfl := Option.some.inj hlim
    rw [List.filter_eq_nil_iff.mpr fun h _ => by simp [not_selected hcomma]] at htargets
    cases htargets

end Resolve

end iac_cli.inventory
