import Iac.Collections.Run
import Iac.Providers.Firewall.Iptables

open effect iac_core iac_core.executor tokens transition

namespace iac_providers.firewall.Iptables

section Commands

variable {tool : Iptables} {k : Netfilter} {site : Site} {name : String}

/-- Whether the rule has the comment of the name, as the backend sees it listed. -/
def tagged (tool : Iptables) (name : String) (site : Site) (rule : Rule) : Bool :=
  carries name (rule_line tool.quoted site.chain rule)

/-- Only commands that add a rule are refused. -/
def AddsOnly (refusal : List String → Option Refusal) : Prop :=
  ∀ argv, refusal argv ≠ none → ∃ bin table args, argv = bin :: "-t" :: table :: "-A" :: args

/-- The texts of a host that stay on one line. -/
structure Legible (quoted : String → Bool) (k : Netfilter) : Prop where
  names : ∀ family, ∀ t ∈ k.tables family, (∀ c ∈ t.name.toList, str.is_whitespace c = false) ∧
    ∀ chain ∈ t.chains, ∀ c ∈ chain.name.toList, str.is_whitespace c = false
  rules : ∀ site, ∀ rule ∈ k.rules site, str.PlainLine (rule_line quoted site.chain rule)

theorem starts_rule_line (quoted : String → Bool) (chain : String) (rule : Rule) :
    "-A ".toList.isPrefixOf (rule_line quoted chain rule) = true := by
  rw [List.isPrefixOf_iff_prefix, rule_line, List.intercalate_cons_of_ne_nil (by simp), List.append_assoc]
  have hstart : "-A ".toList = "-A".toList ++ [' '] := by decide
  rw [hstart, ← List.append_assoc]
  exact List.prefix_append _ _

theorem rule_index_map (name : String) (before : Nat) (rules : List Rule) :
    rule_index name before (rules.map (rule_line tool.quoted site.chain)) =
      (rules.findIdx? (tagged tool name site)).map fun i => i + before + 1 := by
  induction rules generalizing before with
  | nil => rfl
  | cons rule rules ih =>
    have hsame : carries name (rule_line tool.quoted site.chain rule) = tagged tool name site rule := rfl
    rw [List.map_cons, rule_index, if_pos (starts_rule_line _ _ _), List.findIdx?_cons, hsame]
    by_cases htag : tagged tool name site rule = true
    · rw [if_pos htag, if_pos htag]
      simp
    · rw [if_neg htag, if_neg htag, ih, Option.map_map]
      congr 1
      funext i
      simp only [Function.comp_apply]
      omega

theorem list_line_policy (chain : Chain) : "-A ".toList.isPrefixOf (list_line chain) = false := by
  rw [list_line]
  split
  · rfl
  · rfl

/-- A text without other whitespace than blanks is a line. -/
theorem plainLine_of_blanks {line : List Char} (h : ∀ c ∈ line, str.is_whitespace c = false ∨ c = ' ') :
    str.PlainLine line := by
  refine ⟨fun hmem => ?_, fun hlast => ?_⟩
  · exact absurd (h _ hmem) (by decide)
  · exact absurd (h _ (List.mem_of_getLast? hlast)) (by decide)

theorem plain_list_line {chain : Chain} (h : ∀ c ∈ chain.name.toList, str.is_whitespace c = false) :
    str.PlainLine (list_line chain) := by
  have hflags : (∀ c ∈ "-P ".toList, str.is_whitespace c = false ∨ c = ' ') ∧
      ∀ c ∈ "-N ".toList, str.is_whitespace c = false ∨ c = ' ' :=
    ⟨str.forall_mem_of_all (by decide), str.forall_mem_of_all (by decide)⟩
  have hpolicy : ∀ policy : Policy, ∀ c ∈ policy.as_str.toList, str.is_whitespace c = false ∨ c = ' ' := by
    intro policy
    cases policy <;> exact str.forall_mem_of_all (by decide)
  apply plainLine_of_blanks
  intro c hc
  rw [list_line] at hc
  split at hc
  · simp only [List.mem_append, List.mem_cons] at hc
    obtain (hc | hc) | rfl | hc := hc
    · exact hflags.1 c hc
    · exact .inl (h c hc)
    · exact .inr rfl
    · exact hpolicy _ c hc
  · obtain hc | hc := List.mem_append.mp hc
    · exact hflags.2 c hc
    · exact .inl (h c hc)

/-- A refused command leaves the rules. -/
theorem run_refused {argv : List String} {refusal : Refusal} (h : tool.refusal argv = some refusal) :
    (∃ e, perform (tool.run argv) k = (.error e, k)) ∨ ∃ stderr, perform (tool.run argv) k = (.ok ⟨false, [], stderr⟩, k) := by
  rw [run, perform_of_fun, h]
  cases refusal with
  | exit stderr => exact .inr ⟨stderr, rfl⟩
  | broken e => exact .inl ⟨e, rfl⟩

theorem run_command {argv : List String} {command : Command} (hargv : read_argv argv = some command)
    (h : tool.refusal argv = none) : perform (tool.run argv) k =
      (.ok (tool.execute k command).1, (tool.execute k command).2) := by
  rw [run, perform_of_fun, h, hargv]

theorem read_list (site : Site) : read_argv [binary site.family, "-t", site.table, "-S", site.chain] = some (.list site) := by
  obtain ⟨family, table, chain⟩ := site
  cases family <;> rfl

theorem read_delete (site : Site) (index : String) :
    read_argv [binary site.family, "-t", site.table, "-D", site.chain, index] = some (.delete site index) := by
  obtain ⟨family, table, chain⟩ := site
  cases family <;> rfl

theorem read_append (site : Site) (args : List String) :
    read_argv (binary site.family :: "-t" :: site.table :: "-A" :: site.chain :: args) = some (.append site args) := by
  obtain ⟨family, table, chain⟩ := site
  cases family <;> rfl

theorem has_iff : k.has site = true ↔
    ∃ t ∈ k.tables site.family, t.name = site.table ∧ ∃ chain ∈ t.chains, chain.name = site.chain := by
  simp [Netfilter.has]

/-- A chain is listed when it is there. -/
theorem list_cases (hlegible : Legible tool.quoted k) (site : Site) :
    k.has site = false ∧ tool.execute k (.list site) = (no_chain, k) ∨
      k.has site = true ∧ ∃ stdout first, tool.execute k (.list site) = (⟨true, stdout, ""⟩, k) ∧
        str.lines stdout = first :: chain_lines tool.quoted k site ∧ "-A ".toList.isPrefixOf first = false := by
  rw [execute]
  split
  · next chain hfound =>
    obtain ⟨t, ht, hchain⟩ := List.exists_of_findSome?_eq_some hfound
    split at hchain
    · next hname =>
      have hmem := List.mem_of_find?_eq_some hchain
      have hsame : chain.name = site.chain := by simpa using List.find?_some hchain
      refine .inr ⟨has_iff.mpr ⟨t, ht, hname, chain, hmem, hsame⟩, _, list_line chain, rfl, str.lines_unlines ?_,
        list_line_policy chain⟩
      refine List.forall_mem_cons.mpr ⟨?_, ?_⟩
      · exact plain_list_line ((hlegible.names site.family t ht).2 chain hmem)
      · intro line hline
        obtain ⟨rule, hrule, rfl⟩ := List.mem_map.mp hline
        exact hlegible.rules site rule hrule
    · cases hchain
  · next hnone =>
    refine .inl ⟨?_, rfl⟩
    rw [Bool.eq_false_iff]
    intro hhas
    obtain ⟨t, ht, hname, chain, hchain, hsame⟩ := has_iff.mp hhas
    have hmissing := List.findSome?_eq_none_iff.mp hnone t ht
    rw [if_pos hname] at hmissing
    exact absurd hsame (by simpa using List.find?_eq_none.mp hmissing chain hchain)

/-- A rule is deleted by its number. -/
theorem delete_index {i : Nat} (hhas : k.has site = true) (hi : i < (k.rules site).length) :
    tool.execute k (.delete site (toString (i + 1))) = (⟨true, [], ""⟩, k.set site ((k.rules site).eraseIdx i)) := by
  rw [execute, num.from_str_radix_toString (by omega), hhas]

theorem delete_rule_ok {i : Nat} (hhas : k.has site = true) (hi : i < (k.rules site).length)
    (h : tool.refusal [binary site.family, "-t", site.table, "-D", site.chain, toString (i + 1)] = none) :
    perform (delete_rule tool site.table site.chain site.family (i + 1)) k =
      (.ok (), k.set site ((k.rules site).eraseIdx i)) := by
  rw [delete_rule, perform_bind_ok (run_command (read_delete site _) h), delete_index hhas hi]
  rfl

/-- What follows the listing of a chain. -/
theorem ensure_absent_listed (hlegible : Legible tool.quoted k) (hhas : k.has site = true) (name : String)
    (h : tool.refusal [binary site.family, "-t", site.table, "-S", site.chain] = none) :
    perform (ensure_absent tool name site.table site.chain site.family) k =
      match (k.rules site).findIdx? (tagged tool name site) with
      | none => (.ok (), k)
      | some i => perform (delete_rule tool site.table site.chain site.family (i + 1)) k := by
  obtain ⟨hmissing, -⟩ | ⟨-, stdout, first, hexecute, hlines, hfirst⟩ := list_cases hlegible site
  · rw [hmissing] at hhas
    cases hhas
  have hindex : rule_index name 0 (str.lines stdout) = ((k.rules site).findIdx? (tagged tool name site)).map (· + 1) := by
    rw [hlines, rule_index, hfirst, if_neg Bool.false_ne_true, chain_lines, rule_index_map]
  rw [ensure_absent, perform_bind_ok (run_command (read_list site) h), hexecute]
  simp only [Bool.not_true, Bool.false_eq_true, if_false, hindex]
  cases (k.rules site).findIdx? (tagged tool name site) <;> rfl

theorem lt_of_findIdx {rules : List Rule} {p : Rule → Bool} {i : Nat} (h : rules.findIdx? p = some i) : i < rules.length := by
  obtain ⟨hi, -⟩ := List.findIdx?_eq_some_iff_getElem.mp h
  exact hi

/-- The first rule with the comment is deleted when no command is refused for it. -/
theorem ensure_absent_ok (hlegible : Legible tool.quoted k) (hrefusal : AddsOnly tool.refusal) (hhas : k.has site = true)
    (name : String) :
    perform (ensure_absent tool name site.table site.chain site.family) k =
      (.ok (), k.set site ((k.rules site).eraseP (tagged tool name site))) := by
  have hnone {flag : String} {args : List String} (hflag : flag ≠ "-A") :
      tool.refusal (binary site.family :: "-t" :: site.table :: flag :: args) = none := by
    by_contra hne
    obtain ⟨bin, table, args, hargv⟩ := hrefusal _ hne
    simp [hflag] at hargv
  rw [ensure_absent_listed hlegible hhas name (hnone (by decide)), List.eraseP_eq_eraseIdx]
  cases hfound : (k.rules site).findIdx? (tagged tool name site) with
  | none => simp [Netfilter.set]
  | some i => exact delete_rule_ok hhas (lt_of_findIdx hfound) (hnone (by decide))

/-- Whatever is refused, nothing but the first rule with the comment is deleted. -/
theorem ensure_absent_cases (hlegible : Legible tool.quoted k) (name : String) (site : Site) :
    (perform (ensure_absent tool name site.table site.chain site.family) k).2 = k ∨
      (perform (ensure_absent tool name site.table site.chain site.family) k).2 =
        k.set site ((k.rules site).eraseP (tagged tool name site)) := by
  have hdelete {i : Nat} (hhas : k.has site = true) (hfound : (k.rules site).findIdx? (tagged tool name site) = some i) :
      (perform (delete_rule tool site.table site.chain site.family (i + 1)) k).2 = k ∨
        (perform (delete_rule tool site.table site.chain site.family (i + 1)) k).2 =
          k.set site ((k.rules site).eraseP (tagged tool name site)) := by
    cases hrefusal : tool.refusal [binary site.family, "-t", site.table, "-D", site.chain, toString (i + 1)] with
    | none =>
      rw [delete_rule_ok hhas (lt_of_findIdx hfound) hrefusal, List.eraseP_eq_eraseIdx, hfound]
      exact .inr rfl
    | some refusal =>
      obtain ⟨e, hrun⟩ | ⟨stderr, hrun⟩ := run_refused (k := k) hrefusal
      · rw [delete_rule, perform_bind_error hrun]
        exact .inl rfl
      · rw [delete_rule, perform_bind_ok hrun]
        exact .inl rfl
  cases hlist : tool.refusal [binary site.family, "-t", site.table, "-S", site.chain] with
  | some refusal =>
    obtain ⟨e, hrun⟩ | ⟨stderr, hrun⟩ := run_refused (k := k) hlist
    · rw [ensure_absent, perform_bind_error hrun]
      exact .inl rfl
    · rw [ensure_absent, perform_bind_ok hrun]
      exact .inl rfl
  | none =>
    cases hhas : k.has site with
    | false =>
      obtain ⟨-, hexecute⟩ | ⟨hthere, -⟩ := list_cases hlegible site
      · rw [ensure_absent, perform_bind_ok (run_command (read_list site) hlist), hexecute]
        exact .inl rfl
      · rw [hhas] at hthere
        cases hthere
    | true =>
      rw [ensure_absent_listed hlegible hhas name hlist]
      cases hfound : (k.rules site).findIdx? (tagged tool name site) with
      | none => exact .inl rfl
      | some i => exact hdelete hhas hfound

variable {spec : FirewallRuleSpec} {canonical : Family → String → Option String}

/-- The rule is added at the end of its chain, or the command fails and adds none. -/
theorem append_rule_cases (hmade : ∀ rule, tool.make spec.family (match_args spec) = .ok rule → rule = listed canonical spec) :
    (∃ e, perform (append_rule tool spec) k = (.error e, k)) ∨
      k.has spec.site = true ∧
        perform (append_rule tool spec) k = (.ok (), k.set spec.site (k.rules spec.site ++ [listed canonical spec])) := by
  have hargv : read_argv (binary spec.family :: "-t" :: spec.table :: "-A" :: build_match spec) =
      some (.append spec.site (match_args spec)) := read_append spec.site _
  cases hrefusal : tool.refusal (binary spec.family :: "-t" :: spec.table :: "-A" :: build_match spec) with
  | some refusal =>
    obtain ⟨e, hrun⟩ | ⟨stderr, hrun⟩ := run_refused (k := k) hrefusal
    · exact .inl ⟨e, perform_bind_error hrun⟩
    · rw [append_rule, perform_bind_ok hrun]
      exact .inl ⟨_, rfl⟩
  | none =>
    rw [append_rule, perform_bind_ok (run_command hargv hrefusal), execute]
    cases hhas : k.has spec.site with
    | false => exact .inl ⟨_, rfl⟩
    | true =>
      cases hmake : tool.make spec.site.family (match_args spec) with
      | error stderr => exact .inl ⟨_, rfl⟩
      | ok rule =>
        obtain rfl := hmade rule hmake
        exact .inr ⟨rfl, rfl⟩

/-- What is left after the old rule is deleted, and then the new one is added or not. -/
theorem ensure_present_cases (hmade : ∀ rule, tool.make spec.family (match_args spec) = .ok rule → rule = listed canonical spec)
    {base : Netfilter} (hbase : (perform (ensure_absent tool spec.name spec.table spec.chain spec.family) k).2 = base) :
    (∃ e, perform (ensure_present tool spec) k = (.error e, base)) ∨
      base.has spec.site = true ∧ perform (ensure_present tool spec) k =
        (.ok (), base.set spec.site (base.rules spec.site ++ [listed canonical spec])) := by
  rw [ensure_present, perform_bind_ok (perform_attempt _ _), hbase]
  exact append_rule_cases hmade

end Commands

section Runs

variable {tool : Iptables} {canonical : Family → String → Option String} {specs : List FirewallRuleSpec}

/-- A call of the backend, with what is refused during it, or what others make of the kernel. -/
inductive Event where
  | ensure_present (spec : FirewallRuleSpec) (refusal : List String → Option Refusal)
  | ensure_absent (spec : FirewallRuleSpec) (refusal : List String → Option Refusal)
  | outside (kernel : Netfilter)

/-- The kernel, the rules in memory after the same calls, and the rules that others made. -/
structure World where
  kernel : Netfilter
  store : List ObservedRule := []
  others : Site → List Rule

/-- A rule that the backend takes for none of the specs. -/
def foreign (tool : Iptables) (specs : List FirewallRuleSpec) (site : Site) (rule : Rule) : Bool :=
  specs.all fun spec => spec.family != site.family || !tagged tool spec.name site rule

/-- A call that fails to add a rule counts as one that deletes it. -/
def World.step (tool : Iptables) (specs : List FirewallRuleSpec) (w : World) : Event → Option World
  | .ensure_present spec refusal =>
    match perform (ensure_present { tool with refusal } spec) w.kernel with
    | (.ok (), k) => some { w with kernel := k, store := MockFirewall.ensure_present spec w.store }
    | (.error _, k) => some { w with kernel := k, store := MockFirewall.ensure_absent spec.name spec.family w.store }
  | .ensure_absent spec refusal =>
    match perform (ensure_absent { tool with refusal } spec.name spec.table spec.chain spec.family) w.kernel with
    | (.ok (), k) => some { w with kernel := k, store := MockFirewall.ensure_absent spec.name spec.family w.store }
    | (.error _, k) => some { w with kernel := k }
  | .outside kernel => some { w with kernel, others := fun site => (kernel.rules site).filter (foreign tool specs site) }

/-- Calls are for the specs, and others write what is listed on one line each. -/
def ordinary (tool : Iptables) (specs : List FirewallRuleSpec) : Event → Prop
  | .ensure_present spec _ | .ensure_absent spec _ => spec ∈ specs
  | .outside kernel => Legible tool.quoted kernel

theorem set_rules (k : Netfilter) (site other : Site) (rules : List Rule) :
    (k.set site rules).rules other = if other = site then rules else k.rules other := by
  simp [Netfilter.set, Function.update_apply]

/-- The rule of a spec is one for the backend, too. -/
theorem tagged_listed (hdocumented : Documented tool canonical) {spec : FirewallRuleSpec} (hspec : spec.Valid) :
    tagged tool spec.name spec.site (listed canonical spec) = true := by
  refine (carries_listed_iff hdocumented hspec (bare_tag hspec)).mpr ?_
  split
  · rfl
  · exact List.prefix_refl _

theorem plain_listed (hdocumented : Documented tool canonical) {spec : FirewallRuleSpec} (hspec : spec.Valid) :
    str.PlainLine (rule_line tool.quoted spec.chain (listed canonical spec)) := by
  have hbare := bare_listed hdocumented hspec
  have hplain {arg : String} (harg : Bare arg) : ∀ c ∈ arg.toList, str.is_whitespace c = false ∨ c = ' ' :=
    fun c hc => .inl (harg.2 c hc).2
  refine plainLine_of_blanks fun c hc => ?_
  obtain rfl | ⟨word, hword, hmem⟩ := mem_intercalate hc
  · exact .inr rfl
  · simp only [List.mem_cons, List.mem_map] at hword
    obtain rfl | rfl | ⟨arg, harg, rfl⟩ := hword
    · exact hplain (hbare "-A" (by simp)) c hmem
    · exact hplain (hbare spec.chain (by simp)) c hmem
    · have harg := hplain (hbare arg (by simp [harg]))
      rw [print_arg] at hmem
      split at hmem
      · simp only [List.mem_cons, List.mem_append, List.not_mem_nil, or_false] at hmem
        obtain rfl | hmem | rfl := hmem
        · exact .inl (by decide)
        · exact harg c hmem
        · exact .inl (by decide)
      · exact harg c hmem

/-- The change leaves the rules of others in their order. -/
structure Spares (tool : Iptables) (specs : List FirewallRuleSpec) (k after : Netfilter) : Prop where
  legible : Legible tool.quoted after
  foreign : ∀ site, (after.rules site).filter (foreign tool specs site) = (k.rules site).filter (foreign tool specs site)

theorem Spares.trans {k mid after : Netfilter} (h : Spares tool specs k mid) (h' : Spares tool specs mid after) :
    Spares tool specs k after :=
  ⟨h'.legible, fun site => (h'.foreign site).trans (h.foreign site)⟩

theorem legible_set {quoted : String → Bool} {k : Netfilter} (hlegible : Legible quoted k) {site : Site} {rules : List Rule}
    (hlines : ∀ rule ∈ rules, str.PlainLine (rule_line quoted site.chain rule)) : Legible quoted (k.set site rules) := by
  refine ⟨hlegible.names, fun other rule hrule => ?_⟩
  rw [set_rules] at hrule
  split at hrule
  · next hsame => exact hsame ▸ hlines rule hrule
  · exact hlegible.rules other rule hrule

theorem spares_set {k : Netfilter} (hlegible : Legible tool.quoted k) {site : Site} {rules : List Rule}
    (hlines : ∀ rule ∈ rules, str.PlainLine (rule_line tool.quoted site.chain rule))
    (hforeign : rules.filter (foreign tool specs site) = (k.rules site).filter (foreign tool specs site)) :
    Spares tool specs k (k.set site rules) := by
  refine ⟨legible_set hlegible hlines, fun other => ?_⟩
  rw [set_rules]
  split
  · next hsame => exact hsame ▸ hforeign
  · rfl

theorem not_foreign {spec : FirewallRuleSpec} (hmem : spec ∈ specs) {rule : Rule}
    (htag : tagged tool spec.name spec.site rule = true) :
    foreign tool specs spec.site rule = false := by
  rw [foreign, List.all_eq_false]
  refine ⟨spec, hmem, ?_⟩
  rw [htag]
  simp [FirewallRuleSpec.site]

theorem filter_eraseP {α : Type} {p q : α → Bool} {items : List α} (h : ∀ a ∈ items, p a = true → q a = false) :
    (items.eraseP p).filter q = items.filter q := by
  induction items with
  | nil => rfl
  | cons a items ih =>
    obtain ⟨ha, hrest⟩ := List.forall_mem_cons.mp h
    by_cases hp : p a = true
    · rw [List.eraseP_cons_of_pos hp, List.filter_cons_of_neg (by simp [ha hp])]
    · rw [List.eraseP_cons_of_neg hp, List.filter_cons, List.filter_cons, ih hrest]

theorem spares_erase {k : Netfilter} (hlegible : Legible tool.quoted k) {spec : FirewallRuleSpec} (hmem : spec ∈ specs) :
    Spares tool specs k (k.set spec.site ((k.rules spec.site).eraseP (tagged tool spec.name spec.site))) :=
  spares_set hlegible (fun rule hrule => hlegible.rules _ rule (List.mem_of_mem_eraseP hrule))
    (filter_eraseP fun _ _ htag => not_foreign hmem htag)

theorem spares_append {k : Netfilter} (hlegible : Legible tool.quoted k) (hdocumented : Documented tool canonical)
    {spec : FirewallRuleSpec} (hmem : spec ∈ specs) (hspec : spec.Valid) :
    Spares tool specs k (k.set spec.site (k.rules spec.site ++ [listed canonical spec])) := by
  refine spares_set hlegible (fun rule hrule => ?_) ?_
  · obtain hrule | hrule := List.mem_append.mp hrule
    · exact hlegible.rules _ rule hrule
    · exact List.mem_singleton.mp hrule ▸ plain_listed hdocumented hspec
  · rw [List.filter_append, List.filter_cons_of_neg (by rw [not_foreign hmem (tagged_listed hdocumented hspec)]; simp),
      List.filter_nil, List.append_nil]

theorem spares_absent {k : Netfilter} (hlegible : Legible tool.quoted k) {spec : FirewallRuleSpec} (hmem : spec ∈ specs)
    (refusal : List String → Option Refusal) :
    Spares tool specs k (perform (ensure_absent { tool with refusal } spec.name spec.table spec.chain spec.family) k).2 := by
  have hcases := @ensure_absent_cases { tool with refusal } k hlegible spec.name spec.site
  change _ = k ∨ _ = k.set spec.site ((k.rules spec.site).eraseP (tagged tool spec.name spec.site)) at hcases
  obtain hsame | herased := hcases
  · have hsame : (perform (ensure_absent { tool with refusal } spec.name spec.table spec.chain spec.family) k).2 = k := hsame
    rw [hsame]
    exact ⟨hlegible, fun _ => rfl⟩
  · have herased : (perform (ensure_absent { tool with refusal } spec.name spec.table spec.chain spec.family) k).2 = _ :=
      herased
    rw [herased]
    exact spares_erase hlegible hmem

theorem spares_present {k : Netfilter} (hlegible : Legible tool.quoted k) (hdocumented : Documented tool canonical)
    {spec : FirewallRuleSpec} (hmem : spec ∈ specs) (hspec : spec.validate = .ok ()) (refusal : List String → Option Refusal) :
    Spares tool specs k (perform (ensure_present { tool with refusal } spec) k).2 := by
  have herased := spares_absent hlegible hmem refusal
  obtain ⟨e, hrun⟩ | ⟨-, hrun⟩ :=
    @ensure_present_cases { tool with refusal } k spec canonical (fun rule => hdocumented.make spec rule hspec) _ rfl
  · rw [hrun]
    exact herased
  · rw [hrun]
    exact herased.trans (spares_append herased.legible hdocumented hmem (FirewallRuleSpec.valid hspec))

/-- The world before any call. -/
def World.start (tool : Iptables) (specs : List FirewallRuleSpec) (k : Netfilter) : World :=
  { kernel := k, others := fun site => (k.rules site).filter (foreign tool specs site) }

/-- What holds of the kernel in every run. -/
structure Shared (tool : Iptables) (specs : List FirewallRuleSpec) (w : World) : Prop where
  legible : Legible tool.quoted w.kernel
  others : ∀ site, (w.kernel.rules site).filter (foreign tool specs site) = w.others site

theorem Shared.spared {after : Netfilter} {w : World} (h : Shared tool specs w) (hspares : Spares tool specs w.kernel after)
    (store : List ObservedRule) : Shared tool specs { w with kernel := after, store } :=
  ⟨hspares.legible, fun site => (hspares.foreign site).trans (h.others site)⟩

theorem Shared.step {w next : World} {e : Event} (hdocumented : Documented tool canonical)
    (hspecs : ∀ spec ∈ specs, spec.validate = .ok ()) (h : Shared tool specs w) (hordinary : ordinary tool specs e)
    (hstep : w.step tool specs e = some next) : Shared tool specs next := by
  cases e with
  | ensure_present spec refusal =>
    have hspares := spares_present h.legible hdocumented hordinary (hspecs spec hordinary) refusal
    rw [World.step] at hstep
    split at hstep
    · next hrun =>
      rw [hrun] at hspares
      exact Option.some.inj hstep ▸ h.spared hspares _
    · next hrun =>
      rw [hrun] at hspares
      exact Option.some.inj hstep ▸ h.spared hspares _
  | ensure_absent spec refusal =>
    have hspares := spares_absent h.legible hordinary refusal
    rw [World.step] at hstep
    split at hstep
    · next hrun =>
      rw [hrun] at hspares
      exact Option.some.inj hstep ▸ h.spared hspares _
    · next hrun =>
      rw [hrun] at hspares
      exact Option.some.inj hstep ▸ h.spared hspares _
  | outside kernel =>
    obtain rfl := Option.some.inj hstep
    exact ⟨hordinary, fun _ => rfl⟩

theorem shared_of_run {k : Netfilter} {w : World} (hdocumented : Documented tool canonical)
    (hspecs : ∀ spec ∈ specs, spec.validate = .ok ()) (hlegible : Legible tool.quoted k)
    (hrun : Run (World.step tool specs) (fun _ e => ordinary tool specs e) (World.start tool specs k) w) :
    Shared tool specs w :=
  hrun.invariant ⟨hlegible, fun _ => rfl⟩ fun _ _ _ h hordinary hstep => h.step hdocumented hspecs hordinary hstep

/-- Specs that the backend tells apart: a name stands for one chain, and the comment of one name is
not taken for that of another. -/
structure Distinct (tool : Iptables) (specs : List FirewallRuleSpec) : Prop where
  valid : ∀ spec ∈ specs, spec.validate = .ok ()
  site : ∀ a ∈ specs, ∀ b ∈ specs, a.name = b.name → a.family = b.family → a.site = b.site
  apart : ∀ a ∈ specs, ∀ b ∈ specs, a.family = b.family → a.name ≠ b.name →
    tool.quoted ("iac:" ++ b.name) = true ∨ ¬ a.name.toList <+: b.name.toList

/-- Nothing but the addition of a rule fails, and others leave the rules of the specs and their chains. -/
def lenient (tool : Iptables) (specs : List FirewallRuleSpec) (w : World) : Event → Prop
  | .ensure_present spec refusal | .ensure_absent spec refusal => spec ∈ specs ∧ AddsOnly refusal
  | .outside kernel => Legible tool.quoted kernel ∧ ∀ spec ∈ specs,
      (w.kernel.has spec.site = true → kernel.has spec.site = true) ∧ ∀ site, site.family = spec.family →
        (kernel.rules site).filter (tagged tool spec.name site) = (w.kernel.rules site).filter (tagged tool spec.name site)

theorem ordinary_of_lenient {w : World} {e : Event} (h : lenient tool specs w e) : ordinary tool specs e := by
  cases e with
  | ensure_present spec refusal => exact h.1
  | ensure_absent spec refusal => exact h.1
  | outside kernel => exact h.1

/-- The rule of a spec, both in the kernel and in memory. -/
structure Mirrors (tool : Iptables) (canonical : Family → String → Option String) (specs : List FirewallRuleSpec)
    (spec : FirewallRuleSpec) (w : World) (current : Option FirewallRuleSpec) : Prop where
  mem : ∀ c, current = some c → c ∈ specs ∧ c.name = spec.name ∧ c.family = spec.family ∧ w.kernel.has c.site = true
  store : MockFirewall.query spec.name spec.family w.store = current.map FirewallRuleSpec.rule
  kernel : ∀ site, site.family = spec.family → (w.kernel.rules site).filter (tagged tool spec.name site) =
    (current.toList.filter fun c => c.site == site).map (listed canonical)

theorem Distinct.tagged_iff (h : Distinct tool specs) (hdocumented : Documented tool canonical) {a b : FirewallRuleSpec}
    (ha : a ∈ specs) (hb : b ∈ specs) (hfamily : a.family = b.family) :
    tagged tool a.name b.site (listed canonical b) = true ↔ a.name = b.name := by
  refine (carries_listed_iff hdocumented (FirewallRuleSpec.valid (h.valid b hb))
    (bare_tag (FirewallRuleSpec.valid (h.valid a ha)))).trans ⟨fun htag => ?_, fun hname => ?_⟩
  · by_contra hname
    obtain hquoted | hstart := h.apart a ha b hb hfamily hname
    · rw [hquoted, if_pos rfl] at htag
      exact hname htag
    · split at htag
      · exact hname htag
      · exact hstart htag
  · rw [hname]
    split
    · rfl
    · exact List.prefix_refl _

theorem filter_eraseP_self {α : Type} (p : α → Bool) (items : List α) : (items.eraseP p).filter p = (items.filter p).tail := by
  induction items with
  | nil => rfl
  | cons a items ih =>
    by_cases hp : p a = true
    · rw [List.eraseP_cons_of_pos hp, List.filter_cons_of_pos hp, List.tail_cons]
    · rw [List.eraseP_cons_of_neg hp, List.filter_cons_of_neg hp, List.filter_cons_of_neg hp, ih]

section Store

variable {name name' : String} {family family' : Family} {store : List ObservedRule}

theorem query_absent_self : MockFirewall.query name family (MockFirewall.ensure_absent name family store) = none := by
  rw [MockFirewall.query, List.find?_eq_none]
  intro r hr
  simpa using (List.mem_filter.mp hr).2

theorem query_absent_other (h : ¬ (name = name' ∧ family = family')) :
    MockFirewall.query name family (MockFirewall.ensure_absent name' family' store) = MockFirewall.query name family store := by
  rw [MockFirewall.query, MockFirewall.ensure_absent, List.find?_filter, MockFirewall.query]
  congr 1
  funext r
  by_cases hrule : MockFirewall.is_rule name family r = true
  · have hother : MockFirewall.is_rule name' family' r = false := by
      rw [Bool.eq_false_iff]
      simp only [MockFirewall.is_rule, Bool.and_eq_true, beq_iff_eq, ne_eq] at hrule ⊢
      exact fun hrule' => h ⟨hrule.1.symm.trans hrule'.1, hrule.2.symm.trans hrule'.2⟩
    simp [hrule, hother]
  · simp [hrule]

theorem query_present_self {spec : FirewallRuleSpec} :
    MockFirewall.query spec.name spec.family (MockFirewall.ensure_present spec store) = some spec.rule := by
  have habsent := @query_absent_self spec.name spec.family store
  rw [MockFirewall.query] at habsent
  rw [MockFirewall.query, MockFirewall.ensure_present, List.find?_append, habsent]
  simp [MockFirewall.is_rule, FirewallRuleSpec.rule]

theorem query_present_other {spec : FirewallRuleSpec} (h : ¬ (name = spec.name ∧ family = spec.family)) :
    MockFirewall.query name family (MockFirewall.ensure_present spec store) = MockFirewall.query name family store := by
  have hother : MockFirewall.is_rule name family spec.rule = false := by
    rw [Bool.eq_false_iff]
    simp only [MockFirewall.is_rule, FirewallRuleSpec.rule, Bool.and_eq_true, beq_iff_eq, ne_eq]
    exact fun hrule => h ⟨hrule.1.symm, hrule.2.symm⟩
  refine Eq.trans ?_ (query_absent_other h)
  rw [MockFirewall.query, MockFirewall.ensure_present, List.find?_append, List.find?_singleton, hother,
    if_neg Bool.false_ne_true, Option.or_none, MockFirewall.query]

end Store

theorem find_singleton {α : Type} {p : α → Bool} {items : List α} {a : α} (hunique : ∀ b ∈ items, p b = true → b = a)
    (hmem : a ∈ items) (hp : p a = true) : items.find? p = some a := by
  obtain ⟨b, hfound⟩ := Option.isSome_iff_exists.mp (List.find?_isSome.mpr ⟨a, hmem, hp⟩)
  rw [hfound, hunique b (List.mem_of_find?_eq_some hfound) (List.find?_some hfound)]

variable {spec other : FirewallRuleSpec} {w : World} {current mine : Option FirewallRuleSpec}

/-- Only its own rule is one for a spec. -/
theorem Mirrors.tagged_only (h : Mirrors tool canonical specs spec w current) {site : Site}
    (hfamily : site.family = spec.family)
    {rule : Rule} (hrule : rule ∈ w.kernel.rules site) (htag : tagged tool spec.name site rule = true) :
    ∃ c, current = some c ∧ c.site = site ∧ rule = listed canonical c := by
  have hmem : rule ∈ (current.toList.filter fun c => c.site == site).map (listed canonical) :=
    h.kernel site hfamily ▸ List.mem_filter.mpr ⟨hrule, htag⟩
  obtain ⟨c, hc, rfl⟩ := List.mem_map.mp hmem
  obtain ⟨hcurrent, hsite⟩ := List.mem_filter.mp hc
  exact ⟨c, Option.mem_toList.mp hcurrent, by simpa using hsite, rfl⟩

/-- The rule of a spec is only in the chain that the spec names. -/
theorem Mirrors.site_eq (hdistinct : Distinct tool specs) (hmem : spec ∈ specs)
    (h : Mirrors tool canonical specs spec w current)
    {c : FirewallRuleSpec} (hc : current = some c) : c.site = spec.site := by
  obtain ⟨hc, hname, hfamily, -⟩ := h.mem c hc
  exact hdistinct.site c hc spec hmem hname hfamily

/-- The chain without the rule of the spec. -/
def erased (tool : Iptables) (spec : FirewallRuleSpec) (k : Netfilter) : Netfilter :=
  k.set spec.site ((k.rules spec.site).eraseP (tagged tool spec.name spec.site))

theorem Mirrors.absent_eq (h : Mirrors tool canonical specs spec w current)
    (hlegible : Legible tool.quoted w.kernel) {refusal : List String → Option Refusal} (hrefusal : AddsOnly refusal) :
    perform (ensure_absent { tool with refusal } spec.name spec.table spec.chain spec.family) w.kernel =
      (.ok (), erased tool spec w.kernel) := by
  cases hhas : w.kernel.has spec.site with
  | true => exact @ensure_absent_ok { tool with refusal } w.kernel spec.site hlegible hrefusal hhas spec.name
  | false =>
    have hnone : ∀ rule ∈ w.kernel.rules spec.site, ¬ tagged tool spec.name spec.site rule = true := by
      intro rule hrule htag
      obtain ⟨c, hc, hsite, -⟩ := h.tagged_only rfl hrule htag
      obtain ⟨-, -, -, hthere⟩ := h.mem c hc
      rw [hsite, hhas] at hthere
      cases hthere
    have hsame : erased tool spec w.kernel = w.kernel := by
      rw [erased, List.eraseP_of_forall_not hnone]
      simp [Netfilter.set]
    have hlist : refusal [binary spec.family, "-t", spec.table, "-S", spec.chain] = none := by
      by_contra hne
      obtain ⟨bin, table, args, hargv⟩ := hrefusal _ hne
      simp at hargv
    obtain ⟨-, hexecute⟩ | ⟨hthere, -⟩ := @list_cases { tool with refusal } w.kernel hlegible spec.site
    · have hrun := @run_command { tool with refusal } w.kernel _ _ (read_list spec.site) hlist
      rw [hexecute] at hrun
      rw [hsame]
      exact perform_bind_ok hrun
    · rw [hhas] at hthere
      cases hthere

/-- What becomes of the rule of one spec when that of another is deleted. -/
theorem Mirrors.erase (hdocumented : Documented tool canonical) (hdistinct : Distinct tool specs) (hmem : spec ∈ specs)
    (hother : other ∈ specs) (h : Mirrors tool canonical specs spec w current)
    (hmine : Mirrors tool canonical specs other w mine) :
    Mirrors tool canonical specs other
      { w with kernel := erased tool spec w.kernel, store := MockFirewall.ensure_absent spec.name spec.family w.store }
      (if other.name = spec.name ∧ other.family = spec.family then none else mine) := by
  split
  · next hsame =>
    obtain ⟨hname, hfamily⟩ := hsame
    refine ⟨fun c hc => absurd hc (by simp), ?_, fun site hsite => ?_⟩
    · rw [hname, hfamily]
      exact query_absent_self
    · rw [hname, erased, set_rules]
      split
      · next hwhere =>
        rw [hwhere, filter_eraseP_self, h.kernel _ rfl]
        cases current with
        | none => rfl
        | some c => by_cases hc : c.site = spec.site <;> simp [hc]
      · next hwhere =>
        rw [h.kernel site (hsite.trans hfamily)]
        cases current with
        | none => rfl
        | some c =>
          have hc := h.site_eq hdistinct hmem rfl
          have hne : (c.site == site) = false := by
            rw [beq_eq_false_iff_ne, hc]
            exact fun heq => hwhere heq.symm
          simp [hne]
  · next hdiffers =>
    refine ⟨hmine.mem, (query_absent_other hdiffers).trans hmine.store, fun site hsite => ?_⟩
    rw [erased, set_rules]
    split
    · next hwhere =>
      rw [filter_eraseP, ← hwhere]
      · exact hmine.kernel site hsite
      · intro rule hrule htag
        obtain ⟨c, hc, hplace, rfl⟩ := h.tagged_only rfl hrule htag
        obtain ⟨hin, hname, hfamily, -⟩ := h.mem c hc
        have hfamily' : other.family = spec.family := by
          rw [← hsite, hwhere]
          rfl
        rw [Bool.eq_false_iff, ne_eq, hwhere, ← hplace, hdistinct.tagged_iff hdocumented hother hin
          (hfamily'.trans hfamily.symm)]
        exact fun heq => hdiffers ⟨heq.trans hname, hfamily'⟩
    · exact hmine.kernel site hsite

/-- What becomes of the rule of one spec when that of another is added. -/
theorem Mirrors.append (hdocumented : Documented tool canonical) (hdistinct : Distinct tool specs) (hmem : spec ∈ specs)
    (hother : other ∈ specs) (hhas : w.kernel.has spec.site = true)
    (hmine : Mirrors tool canonical specs other
      { w with store := MockFirewall.ensure_absent spec.name spec.family w.store } mine)
    (hnone : other.name = spec.name ∧ other.family = spec.family → mine = none) :
    Mirrors tool canonical specs other
      { w with kernel := w.kernel.set spec.site (w.kernel.rules spec.site ++ [listed canonical spec])
               store := MockFirewall.ensure_present spec w.store }
      (if other.name = spec.name ∧ other.family = spec.family then some spec else mine) := by
  have htag : other.family = spec.family →
      (tagged tool other.name spec.site (listed canonical spec) = true ↔ other.name = spec.name) :=
    fun hfamily => hdistinct.tagged_iff hdocumented hother hmem hfamily
  split
  · next hsame =>
    obtain ⟨hname, hfamily⟩ := hsame
    refine ⟨?_, ?_, fun site hsite => ?_⟩
    · rintro c ⟨⟩
      exact ⟨hmem, hname.symm, hfamily.symm, hhas⟩
    · rw [hname, hfamily]
      exact query_present_self
    · have hbefore := hmine.kernel site hsite
      rw [hnone ⟨hname, hfamily⟩] at hbefore
      rw [set_rules]
      split
      · next hwhere =>
        rw [List.filter_append, ← hwhere, hbefore, hwhere, List.filter_cons_of_pos ((htag hfamily).mpr hname)]
        simp
      · next hwhere =>
        have hne : (spec.site == site) = false := by
          rw [beq_eq_false_iff_ne]
          exact fun heq => hwhere heq.symm
        rw [hbefore]
        simp [hne]
  · next hdiffers =>
    refine ⟨hmine.mem, ?_, fun site hsite => ?_⟩
    · rw [query_present_other hdiffers, ← query_absent_other hdiffers]
      exact hmine.store
    · rw [set_rules]
      split
      · next hwhere =>
        have hfamily : other.family = spec.family := by
          rw [← hsite, hwhere]
          rfl
        have hplain : ¬ tagged tool other.name spec.site (listed canonical spec) = true :=
          fun hnamed => hdiffers ⟨(htag hfamily).mp hnamed, hfamily⟩
        rw [List.filter_append, hwhere, List.filter_cons_of_neg hplain, List.filter_nil, List.append_nil, ← hwhere]
        exact hmine.kernel site hsite
      · exact hmine.kernel site hsite

/-- Every spec has its rule, if any, both in the kernel and in memory. -/
def Mirrored (tool : Iptables) (canonical : Family → String → Option String) (specs : List FirewallRuleSpec) (w : World) : Prop :=
  ∀ spec ∈ specs, ∃ current, Mirrors tool canonical specs spec w current

theorem Mirrored.erase (hdocumented : Documented tool canonical) (hdistinct : Distinct tool specs) (hmem : spec ∈ specs)
    (h : Mirrored tool canonical specs w) :
    Mirrored tool canonical specs
      { w with kernel := erased tool spec w.kernel, store := MockFirewall.ensure_absent spec.name spec.family w.store } := by
  obtain ⟨current, hcurrent⟩ := h spec hmem
  intro other hother
  obtain ⟨mine, hmine⟩ := h other hother
  exact ⟨_, hcurrent.erase hdocumented hdistinct hmem hother hmine⟩

theorem Mirrored.replace (hdocumented : Documented tool canonical) (hdistinct : Distinct tool specs) (hmem : spec ∈ specs)
    (h : Mirrored tool canonical specs w) (hhas : w.kernel.has spec.site = true) :
    Mirrored tool canonical specs
      { w with kernel := (erased tool spec w.kernel).set spec.site
                 ((erased tool spec w.kernel).rules spec.site ++ [listed canonical spec])
               store := MockFirewall.ensure_present spec w.store } := by
  obtain ⟨current, hcurrent⟩ := h spec hmem
  intro other hother
  obtain ⟨mine, hmine⟩ := h other hother
  have herased := hcurrent.erase hdocumented hdistinct hmem hother hmine
  exact ⟨_, @Mirrors.append _ _ _ spec other { w with kernel := erased tool spec w.kernel } _
    hdocumented hdistinct hmem hother hhas
    herased fun hsame => if_pos hsame⟩

theorem Mirrored.step {next : World} {e : Event} (hdocumented : Documented tool canonical)
    (hdistinct : Distinct tool specs) (hshared : Shared tool specs w) (h : Mirrored tool canonical specs w)
    (hlenient : lenient tool specs w e) (hstep : w.step tool specs e = some next) : Mirrored tool canonical specs next := by
  cases e with
  | ensure_present spec refusal =>
    obtain ⟨hmem, hrefusal⟩ := hlenient
    obtain ⟨current, hcurrent⟩ := h spec hmem
    have habsent := hcurrent.absent_eq hshared.legible hrefusal
    obtain ⟨e, hrun⟩ | ⟨hhas, hrun⟩ := @ensure_present_cases { tool with refusal } w.kernel spec canonical
      (fun rule => hdocumented.make spec rule (hdistinct.valid spec hmem)) _ (congrArg Prod.snd habsent)
    · rw [World.step, hrun] at hstep
      exact Option.some.inj hstep ▸ h.erase hdocumented hdistinct hmem
    · rw [World.step, hrun] at hstep
      exact Option.some.inj hstep ▸ h.replace hdocumented hdistinct hmem hhas
  | ensure_absent spec refusal =>
    obtain ⟨hmem, hrefusal⟩ := hlenient
    obtain ⟨current, hcurrent⟩ := h spec hmem
    rw [World.step, hcurrent.absent_eq hshared.legible hrefusal] at hstep
    exact Option.some.inj hstep ▸ h.erase hdocumented hdistinct hmem
  | outside kernel =>
    obtain rfl := Option.some.inj hstep
    obtain ⟨-, hkept⟩ := hlenient
    intro spec hmem
    obtain ⟨current, hcurrent⟩ := h spec hmem
    refine ⟨current, fun c hc => ?_, hcurrent.store, fun site hsite => ((hkept spec hmem).2 site hsite).trans
      (hcurrent.kernel site hsite)⟩
    obtain ⟨hin, hname, hfamily, hhas⟩ := hcurrent.mem c hc
    exact ⟨hin, hname, hfamily, (hkept c hin).1 hhas⟩

theorem mirrored_of_run {k : Netfilter} (hdocumented : Documented tool canonical) (hdistinct : Distinct tool specs)
    (hlegible : Legible tool.quoted k)
    (hnone : ∀ spec ∈ specs, ∀ site, site.family = spec.family → ∀ rule ∈ k.rules site, tagged tool spec.name site rule = false)
    (hrun : Run (World.step tool specs) (lenient tool specs) (World.start tool specs k) w) :
    Shared tool specs w ∧ Mirrored tool canonical specs w := by
  refine hrun.invariant (I := fun w => Shared tool specs w ∧ Mirrored tool canonical specs w)
    ⟨⟨hlegible, fun _ => rfl⟩, fun spec hmem => ⟨none, ?_, rfl, fun site hsite => ?_⟩⟩ ?_
  · intro c hc
    cases hc
  · refine List.filter_eq_nil_iff.mpr fun rule hrule => ?_
    rw [hnone spec hmem site hsite rule hrule]
    simp
  · intro w next e hw hlenient hstep
    exact ⟨hw.1.step hdocumented hdistinct.valid (ordinary_of_lenient hlenient) hstep,
      hw.2.step hdocumented hdistinct hw.1 hlenient hstep⟩

/-- The lines of a dump after its banner. -/
def dump (quoted : String → Bool) (k : Netfilter) (family : Family) : List (List Char) :=
  (k.tables family).flatMap (save_table quoted k family)

theorem mem_dump {quoted : String → Bool} {k : Netfilter} {family : Family} {line : List Char} :
    line ∈ dump quoted k family ↔
      (∃ t ∈ k.tables family, line = '*' :: t.name.toList ∨ (∃ chain ∈ t.chains, line = save_line chain) ∨
      (∃ chain ∈ t.chains, ∃ rule ∈ k.rules ⟨family, t.name, chain.name⟩, line = rule_line quoted chain.name rule) ∨
      line = "COMMIT".toList) := by
  simp only [dump, save_table, chain_lines, List.mem_flatMap, List.mem_append, List.mem_cons, List.mem_map, List.not_mem_nil,
    or_false, or_assoc, eq_comm]

theorem solid_of_unblank {text : List Char} (h : ∀ c ∈ text, str.is_whitespace c = false) : Solid is_space text := by
  intro c hc
  simp only [is_space, beq_eq_false_iff_ne, ne_eq]
  rintro rfl
  exact absurd (h ' ' hc) (by decide)

/-- The words of the line of a chain. -/
theorem policy_word (chain : Chain) : (∀ c ∈ ((chain.policy.map Policy.as_str).getD "-").toList, str.is_whitespace c = false) ∧
    ((chain.policy.map Policy.as_str).getD "-").toList.head? ≠ some '"' ∧
    ((chain.policy.map Policy.as_str).getD "-").toList.head? ≠ some 'i' := by
  generalize chain.policy = policy
  cases policy with
  | none => exact ⟨str.forall_mem_of_all (by decide), by decide, by decide⟩
  | some policy => cases policy <;> exact ⟨str.forall_mem_of_all (by decide), by decide, by decide⟩

/-- A line of words that start in another way than a comment has none. -/
theorem not_carries_words {name : String} (hname : Bare ("iac:" ++ name)) {words : List (List Char)}
    (h : ∀ word ∈ words, (∀ c ∈ word, str.is_whitespace c = false) ∧ word.head? ≠ some '"' ∧ word.head? ≠ some 'i') :
    carries name ([' '].intercalate words) = false := by
  rw [Bool.eq_false_iff]
  intro hcarries
  obtain ⟨word, hword, mark, hmark, hprefix⟩ := marked_word (fun word hword => solid_of_unblank (h word hword).1) hname hcarries
  obtain ⟨-, hquote, hi⟩ := h word hword
  obtain ⟨rest, rfl⟩ := hprefix
  simp only [marks, List.mem_cons, List.not_mem_nil, or_false] at hmark
  obtain rfl | rfl := hmark
  · exact hquote rfl
  · exact hi (by simp)

/-- Only the lines of rules have comments. -/
theorem rule_of_dump {k : Netfilter} (hlegible : Legible tool.quoted k) {family : Family} {name : String}
    (hname : Bare ("iac:" ++ name)) {line : List Char} (hline : line ∈ dump tool.quoted k family)
    (hcarries : carries name line = true) :
    ∃ site, site.family = family ∧
      ∃ rule ∈ k.rules site, tagged tool name site rule = true ∧ line = rule_line tool.quoted site.chain rule := by
  have hsingle {word : List Char}
      (hword : (∀ c ∈ word, str.is_whitespace c = false) ∧ word.head? ≠ some '"' ∧ word.head? ≠ some 'i') :
      carries name word = false := by
    have hplain : carries name ([' '].intercalate [word]) = false :=
      not_carries_words hname fun w hw => List.mem_singleton.mp hw ▸ hword
    simpa using hplain
  obtain ⟨t, ht, rfl | ⟨chain, hchain, rfl⟩ | ⟨chain, hchain, rule, hrule, rfl⟩ | rfl⟩ := mem_dump.mp hline
  · rw [hsingle] at hcarries
    · cases hcarries
    · exact ⟨List.forall_mem_cons.mpr ⟨by decide, (hlegible.names family t ht).1⟩, by simp, by simp⟩
  · rw [save_line, not_carries_words hname] at hcarries
    · cases hcarries
    · intro word hword
      simp only [List.mem_cons, List.not_mem_nil, or_false] at hword
      obtain rfl | rfl | rfl := hword
      · exact ⟨List.forall_mem_cons.mpr ⟨by decide, (hlegible.names family t ht).2 chain hchain⟩, by simp, by simp⟩
      · exact policy_word chain
      · exact ⟨str.forall_mem_of_all (by decide), by decide, by decide⟩
  · exact ⟨⟨family, t.name, chain.name⟩, rfl, rule, hrule, hcarries, rfl⟩
  · rw [hsingle ⟨str.forall_mem_of_all (by decide), by decide, by decide⟩] at hcarries
    cases hcarries

theorem plain_dump {k : Netfilter} (hlegible : Legible tool.quoted k) {family : Family} :
    ∀ line ∈ dump tool.quoted k family, str.PlainLine line := by
  have hplain {text : List Char} (h : ∀ c ∈ text, str.is_whitespace c = false) : str.PlainLine text :=
    plainLine_of_blanks fun c hc => .inl (h c hc)
  intro line hline
  obtain ⟨t, ht, rfl | ⟨chain, hchain, rfl⟩ | ⟨chain, hchain, rule, hrule, rfl⟩ | rfl⟩ := mem_dump.mp hline
  · exact hplain (List.forall_mem_cons.mpr ⟨by decide, (hlegible.names family t ht).1⟩)
  · refine plainLine_of_blanks fun c hc => ?_
    obtain rfl | ⟨word, hword, hmem⟩ := mem_intercalate hc
    · exact .inr rfl
    · simp only [List.mem_cons, List.not_mem_nil, or_false] at hword
      obtain rfl | rfl | rfl := hword
      · exact .inl (List.forall_mem_cons.mpr ⟨by decide, (hlegible.names family t ht).2 chain hchain⟩ c hmem)
      · exact .inl ((policy_word chain).1 c hmem)
      · have hcounters : ∀ c ∈ "[0:0]".toList, str.is_whitespace c = false := str.forall_mem_of_all (by decide)
        exact .inl (hcounters c hmem)
  · exact hlegible.rules ⟨family, t.name, chain.name⟩ rule hrule
  · exact hplain (str.forall_mem_of_all (by decide))

/-- What the backend finds of a rule in memory once it is in the kernel. -/
def seen (canonical : Family → String → Option String) (rule : ObservedRule) : ObservedRule :=
  { rule with
    table := "filter"
    source := rule.source.bind (read_address canonical rule.family)
    destination := rule.destination.bind (read_address canonical rule.family) }

theorem Mirrors.query_eq (hdocumented : Documented tool canonical) (hdistinct : Distinct tool specs) (hmem : spec ∈ specs)
    (h : Mirrors tool canonical specs spec w current) (hlegible : Legible tool.quoted w.kernel)
    (hsave : tool.refusal [bin_save spec.family] = none) :
    query tool spec.name spec.family w.kernel = .ok (current.map (found_rule canonical)) := by
  have hread : read_argv [bin_save spec.family] = some (.save spec.family) := by
    cases spec.family <;> rfl
  have hname := bare_tag (FirewallRuleSpec.valid (hdistinct.valid spec hmem))
  have hlines : str.lines (str.unlines (tool.banner :: dump tool.quoted w.kernel spec.family)) =
      tool.banner :: dump tool.quoted w.kernel spec.family :=
    str.lines_unlines (List.forall_mem_cons.mpr ⟨hdocumented.banner.1, plain_dump hlegible⟩)
  have hfind : (tool.banner :: dump tool.quoted w.kernel spec.family).find? (carries spec.name) =
      current.map fun c => rule_line tool.quoted c.chain (listed canonical c) := by
    rw [List.find?_cons_of_neg (by rw [hdocumented.banner.2]; simp)]
    cases hcurrent : current with
    | none =>
      refine List.find?_eq_none.mpr fun line hline hcarries => ?_
      obtain ⟨site, hsite, rule, hrule, htag, -⟩ := rule_of_dump hlegible hname hline hcarries
      obtain ⟨c, hc, -⟩ := h.tagged_only hsite hrule htag
      rw [hcurrent] at hc
      cases hc
    | some c =>
      obtain ⟨-, -, hfamily, hhas⟩ := h.mem c hcurrent
      obtain ⟨t, ht, htable, chain, hchain, hsame⟩ := has_iff.mp hhas
      have hthere : listed canonical c ∈ (w.kernel.rules c.site).filter (tagged tool spec.name c.site) := by
        rw [h.kernel c.site hfamily, hcurrent]
        simp
      obtain ⟨hrule, htag⟩ := List.mem_filter.mp hthere
      refine find_singleton (fun line hline hcarries => ?_) ?_ htag
      · obtain ⟨site, hsite, rule, hrule, htag, rfl⟩ := rule_of_dump hlegible hname hline hcarries
        obtain ⟨d, hd, rfl, rfl⟩ := h.tagged_only hsite hrule htag
        obtain rfl := Option.some.inj (hcurrent.symm.trans hd)
        rfl
      · refine mem_dump.mpr ⟨t, hfamily ▸ ht, .inr (.inr (.inl ⟨chain, hchain, listed canonical c, ?_, ?_⟩))⟩
        · rw [htable, hsame, ← hfamily]
          exact hrule
        · rw [hsame]
          rfl
  have hparse : ∀ c, current = some c →
      parse_save_line (rule_line tool.quoted c.chain (listed canonical c)) spec.name spec.family = found_rule canonical c := by
    intro c hc
    obtain ⟨hin, hname, hfamily, -⟩ := h.mem c hc
    rw [← hname, ← hfamily]
    exact parse_rule_line hdocumented (FirewallRuleSpec.valid (hdistinct.valid c hin))
  have hout : query tool spec.name spec.family w.kernel =
      .ok (((str.lines (str.unlines (tool.banner :: dump tool.quoted w.kernel spec.family))).find? (carries spec.name)).map
        fun line => parse_save_line line spec.name spec.family) := by
    rw [query, run_command hread hsave]
    rfl
  rw [hout, hlines, hfind, Option.map_map]
  cases current with
  | none => rfl
  | some c => exact congrArg (fun r => Except.ok (some r)) (hparse c rfl)

end Runs

section Sample

/-- A single address gets its length. -/
def sample_canonical (family : Family) (addr : String) : Option String :=
  if "/0".toList <:+ addr.toList then none
  else some (String.ofList (addr.toList.filter is_address_char ++
    if '/' ∈ addr.toList then [] else match family with
      | .Ipv4 => "/32".toList
      | .Ipv6 => "/128".toList))

def take_option (flag : String) : List String → Option String × List String
  | [] => (none, [])
  | [arg] => (none, [arg])
  | arg :: value :: rest => if arg = flag then (some value, rest) else (none, arg :: value :: rest)

/-- The arguments of a new rule in the order of a listing. -/
def sample_make (family : Family) (args : List String) : Except String Rule :=
  let (protocol, args) := take_option "-p" args
  let (port, args) := take_option "--dport" args
  let (source, args) := take_option "-s" args
  let (destination, args) := take_option "-d" args
  .ok (((source.bind (sample_canonical family)).elim [] fun s => ["-s", s]) ++
    ((destination.bind (sample_canonical family)).elim [] fun d => ["-d", d]) ++ (protocol.elim [] fun p => ["-p", p]) ++
    (port.elim [] fun p => ["-m", protocol.getD "all", "--dport", p]) ++ args ++ target_options family (args.getLast?.getD ""))

/-- Comments are listed in quotes, and no command fails. -/
def sample_tool : Iptables where
  quoted arg := "iac:".toList.isPrefixOf arg.toList
  make := sample_make
  banner := "# Generated by iptables-save".toList
  refusal _ := none

theorem sample_make_listed (spec : FirewallRuleSpec) :
    sample_make spec.family (match_args spec) = .ok (listed sample_canonical spec) := by
  obtain ⟨name, table, chain, protocol, port, source, destination, action, family, state⟩ := spec
  by_cases hprotocol : protocol = "all"
  · cases port <;> cases source <;> cases destination <;>
      simp [sample_make, match_args, take_option, listed, hprotocol]
  · cases port <;> cases source <;> cases destination <;>
      simp [sample_make, match_args, take_option, listed, hprotocol]

theorem sample_documented : Documented sample_tool sample_canonical where
  make spec rule _ hmake := (Except.ok.inj (hmake.symm.trans (sample_make_listed spec)))
  address := by
    intro family addr text _ htext
    have hsuffix : (∀ c ∈ "/32".toList, is_address_char c = true) ∧ ∀ c ∈ "/128".toList, is_address_char c = true :=
      ⟨str.forall_mem_of_all (by decide), str.forall_mem_of_all (by decide)⟩
    unfold sample_canonical at htext
    split at htext
    · cases htext
    obtain rfl := Option.some.inj htext
    rw [String.toList_ofList]
    constructor
    · split
      · next hslash => exact fun hempty => by simpa [hslash, is_address_char] using congrArg ('/' ∈ ·) hempty
      · cases family <;> simp
    · intro c hc
      obtain hc | hc := List.mem_append.mp hc
      · exact (List.mem_filter.mp hc).2
      · split at hc
        · cases hc
        · cases family
          · exact hsuffix.1 c hc
          · exact hsuffix.2 c hc
  flag := by decide
  banner := by
    refine ⟨plainLine_of_blanks (str.forall_mem_of_all (by decide)), fun name => ?_⟩
    rw [Bool.eq_false_iff]
    intro hcarries
    obtain ⟨mark, hmark, hinfix⟩ := carries_iff.mp hcarries
    have hcolon : ':' ∈ mark := by
      simp only [marks, List.mem_cons, List.not_mem_nil, or_false] at hmark
      obtain rfl | rfl := hmark <;> simp
    have hmem : ':' ∈ sample_tool.banner := hinfix.subset (by simp [hcolon])
    revert hmem
    decide

def input : Site := ⟨.Ipv4, "filter", "INPUT"⟩

/-- A host with one rule that is not from the backend. -/
def sample_host : Netfilter where
  tables
    | .Ipv4 => [⟨"filter", [⟨"INPUT", some .ACCEPT⟩, ⟨"FORWARD", some .DROP⟩]⟩]
    | .Ipv6 => []
  rules site := if site = input then [["-i", "lo", "-j", "ACCEPT"]] else []

def sample_ssh : FirewallRuleSpec :=
  { name := "ssh", chain := "INPUT", protocol := "tcp", port := some 22, source := some "10.0.0.1", action := "ACCEPT" }

def sample_rest : FirewallRuleSpec := { name := "rest", chain := "INPUT", action := "DROP" }

/-- The host after another program has added a rule. -/
def with_rule (k : Netfilter) : Netfilter := k.set input (k.rules input ++ [["-j", "LOG"]])

/-- No rule can be added. -/
def locked : List String → Option Refusal
  | _ :: "-t" :: _ :: "-A" :: _ => some (.exit "iptables: Resource temporarily unavailable.\n")
  | _ => none

def World.after (tool : Iptables) (specs : List FirewallRuleSpec) (w : World) (e : Event) : World :=
  (w.step tool specs e).getD w

theorem World.step_after (tool : Iptables) (specs : List FirewallRuleSpec) (w : World) (e : Event) :
    w.step tool specs e = some (w.after tool specs e) := by
  rw [World.after]
  cases e with
  | ensure_present spec refusal | ensure_absent spec refusal =>
    rw [World.step]
    split <;> rfl
  | outside kernel => rfl

def sample_specs : List FirewallRuleSpec := [sample_ssh, sample_rest]

/-- The host with the rule for ssh. -/
def sample_first : World :=
  (World.start sample_tool sample_specs sample_host).after sample_tool sample_specs (.ensure_present sample_ssh fun _ => none)

/-- The host after a rule of another program, and a rule for the rest that could not be added. -/
def sample_last : World :=
  (sample_first.after sample_tool sample_specs (.outside (with_rule sample_first.kernel))).after sample_tool sample_specs
    (.ensure_present sample_rest locked)

theorem sample_distinct : Distinct sample_tool sample_specs where
  valid spec hmem := by
    simp only [sample_specs, List.mem_cons, List.not_mem_nil, or_false] at hmem
    obtain rfl | rfl := hmem
    · decide
    · decide
  site a ha b hb _ _ := by
    simp only [sample_specs, List.mem_cons, List.not_mem_nil, or_false] at ha hb
    obtain rfl | rfl := ha <;> obtain rfl | rfl := hb <;> rfl
  apart a _ b _ _ _ := by
    refine .inl (List.isPrefixOf_iff_prefix.mpr ?_)
    rw [String.toList_append]
    exact List.prefix_append _ _

theorem mem_sample_host {site : Site} {rule : Rule} (h : rule ∈ sample_host.rules site) :
    site = input ∧ rule = ["-i", "lo", "-j", "ACCEPT"] := by
  simp only [sample_host] at h
  split at h
  · next hsite => exact ⟨hsite, List.mem_singleton.mp h⟩
  · cases h

theorem sample_legible : Legible sample_tool.quoted sample_host where
  names family t ht := by
    cases family with
    | Ipv4 =>
      obtain rfl := List.mem_singleton.mp ht
      refine ⟨str.forall_mem_of_all (by decide), fun chain hchain => ?_⟩
      obtain rfl | rfl := List.mem_pair.mp hchain
      · exact str.forall_mem_of_all (by decide)
      · exact str.forall_mem_of_all (by decide)
    | Ipv6 => cases ht
  rules site rule hrule := by
    obtain ⟨rfl, rfl⟩ := mem_sample_host hrule
    exact plainLine_of_blanks (str.forall_mem_of_all (by decide))

theorem sample_untagged : ∀ spec ∈ sample_specs, ∀ site, site.family = spec.family → ∀ rule ∈ sample_host.rules site,
    tagged sample_tool spec.name site rule = false := by
  intro spec hmem site _ rule hrule
  obtain ⟨rfl, rfl⟩ := mem_sample_host hrule
  revert spec
  decide

theorem sample_run : Run (World.step sample_tool sample_specs) (lenient sample_tool sample_specs)
    (World.start sample_tool sample_specs sample_host) sample_last := by
  have hssh : lenient sample_tool sample_specs (World.start sample_tool sample_specs sample_host)
      (.ensure_present sample_ssh fun _ => none) :=
    ⟨by simp [sample_specs], fun _ hrefused => absurd rfl hrefused⟩
  have hshared : Shared sample_tool sample_specs sample_first :=
    shared_of_run sample_documented sample_distinct.valid sample_legible
      (.step .start (ordinary_of_lenient hssh) (World.step_after _ _ _ _))
  have hlog : lenient sample_tool sample_specs sample_first (.outside (with_rule sample_first.kernel)) := by
    refine ⟨legible_set hshared.legible fun rule hrule => ?_, fun spec hmem => ⟨fun hhas => hhas, fun site _ => ?_⟩⟩
    · obtain hrule | hrule := List.mem_append.mp hrule
      · exact hshared.legible.rules input rule hrule
      · rw [List.mem_singleton.mp hrule]
        exact plainLine_of_blanks (str.forall_mem_of_all (by decide))
    · have hplain : ∀ spec ∈ sample_specs, tagged sample_tool spec.name input ["-j", "LOG"] = false := by
        decide
      rw [with_rule, set_rules]
      split
      · next hsite =>
        rw [hsite, List.filter_append, List.filter_cons_of_neg (by rw [hplain spec hmem]; simp), List.filter_nil,
          List.append_nil]
      · rfl
  have hrest : ∀ w, lenient sample_tool sample_specs w (.ensure_present sample_rest locked) := by
    refine fun w => ⟨by simp [sample_specs], fun argv hrefused => ?_⟩
    unfold locked at hrefused
    split at hrefused
    · exact ⟨_, _, _, rfl⟩
    · exact absurd rfl hrefused
  exact .step (.step (.step .start hssh (World.step_after _ _ _ _)) hlog (World.step_after _ _ _ _)) (hrest _)
    (World.step_after _ _ _ _)

end Sample

section Results

variable {tool : Iptables} {canonical : Family → String → Option String} {specs : List FirewallRuleSpec}
  {spec : FirewallRuleSpec} {w : World}

/-- Whatever commands fail, and whatever the specs ask for, the calls of the backend leave
every rule of others where it is in its chain. -/
theorem rules_of_others_stay {k : Netfilter} {w : World} (hdocumented : Documented tool canonical)
    (hspecs : ∀ spec ∈ specs, spec.validate = .ok ()) (hlegible : Legible tool.quoted k)
    (hrun : Run (World.step tool specs) (fun _ e => ordinary tool specs e) (World.start tool specs k) w) (site : Site) :
    (w.kernel.rules site).filter (foreign tool specs site) = w.others site :=
  (shared_of_run hdocumented hspecs hlegible hrun).others site

/-- The rules of other programs around the rule for ssh. -/
theorem rules_around_ssh :
    (sample_last.kernel.rules input).filter (foreign sample_tool sample_specs input) =
      [["-i", "lo", "-j", "ACCEPT"], ["-j", "LOG"]] := by
  have hrun : Run (World.step sample_tool sample_specs) (fun _ e => ordinary sample_tool sample_specs e)
      (World.start sample_tool sample_specs sample_host) sample_last := sample_run.mono fun _ _ => ordinary_of_lenient
  rw [rules_of_others_stay sample_documented sample_distinct.valid sample_legible hrun input]
  decide +kernel

/-- In a run in which nothing but the addition of a rule fails, and others leave the rules of the specs
alone, the backend finds of every spec what a store in memory holds after the same calls, and there
are no second rules of it. -/
theorem query_mirrored {k : Netfilter} (hdocumented : Documented tool canonical) (hdistinct : Distinct tool specs)
    (hlegible : Legible tool.quoted k)
    (hnone : ∀ spec ∈ specs, ∀ site, site.family = spec.family → ∀ rule ∈ k.rules site, tagged tool spec.name site rule = false)
    (hrun : Run (World.step tool specs) (lenient tool specs) (World.start tool specs k) w) (hmem : spec ∈ specs)
    (hsave : tool.refusal [bin_save spec.family] = none) :
    query tool spec.name spec.family w.kernel = .ok ((MockFirewall.query spec.name spec.family w.store).map (seen canonical)) ∧
      ∀ site, site.family = spec.family → ((w.kernel.rules site).filter (tagged tool spec.name site)).length =
        if site = spec.site ∧ (MockFirewall.query spec.name spec.family w.store).isSome then 1 else 0 := by
  obtain ⟨hshared, hmirrored⟩ := mirrored_of_run hdocumented hdistinct hlegible hnone hrun
  obtain ⟨current, h⟩ := hmirrored spec hmem
  rw [h.query_eq hdocumented hdistinct hmem hshared.legible hsave, h.store]
  refine ⟨by cases current <;> rfl, fun site hsite => ?_⟩
  rw [h.kernel site hsite]
  cases current with
  | none => simp
  | some c =>
    have hplace := h.site_eq hdistinct hmem rfl
    by_cases hwhere : site = spec.site
    · simp [hwhere, hplace]
    · have hne : (c.site == site) = false := by
        rw [beq_eq_false_iff_ne, hplace]
        exact fun heq => hwhere heq.symm
      simp [hwhere, hne]


/-- The rule for ssh is found, and only once, and none for the rest. -/
theorem ssh_is_mirrored : query sample_tool "ssh" .Ipv4 sample_last.kernel = .ok (some sample_ssh.rule) ∧
    ((sample_last.kernel.rules input).filter (tagged sample_tool "ssh" input)).length = 1 ∧
      query sample_tool "rest" .Ipv4 sample_last.kernel = .ok none := by
  have hssh := query_mirrored sample_documented sample_distinct sample_legible sample_untagged sample_run
    (by simp [sample_specs] : sample_ssh ∈ sample_specs) rfl
  have hrest := query_mirrored sample_documented sample_distinct sample_legible sample_untagged sample_run
    (by simp [sample_specs] : sample_rest ∈ sample_specs) rfl
  have hstore : sample_last.store = [sample_ssh.rule] := by
    decide
  rw [hstore] at hssh hrest
  have hseen : (MockFirewall.query "ssh" .Ipv4 [sample_ssh.rule]).map (seen sample_canonical) = some sample_ssh.rule := by
    decide
  exact ⟨hssh.1.trans (congrArg Except.ok hseen), (hssh.2 input rfl).trans (by decide), hrest.1.trans rfl⟩

end Results

end iac_providers.firewall.Iptables
