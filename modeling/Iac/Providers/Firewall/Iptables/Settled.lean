import Iac.Providers.Firewall.Iptables.Mirrored

open effect iac_core iac_core.executor serde_json transition

namespace iac_providers.firewall

section Observed

variable {Host : Type} {backend : FirewallBackend Host} {host : Host} {spec : FirewallRuleSpec} {rule : ObservedRule}

/-- The spec that `observe` reports of a rule. -/
def observed_value (rule : ObservedRule) : Value :=
  .object ([("name", .string rule.name), ("chain", .string rule.chain), ("protocol", .string rule.protocol)] ++
    optional_field "port" (rule.port.map of_port) ++ optional_field "source" (rule.source.map .string) ++
    optional_field "destination" (rule.destination.map .string) ++
    [("action", .string rule.action), ("family", .string rule.family.as_str)])

theorem get_observed_value (rule : ObservedRule) :
    get_str (observed_value rule) "chain" = some rule.chain ∧ get_str (observed_value rule) "protocol" = some rule.protocol ∧
      get_str (observed_value rule) "source" = rule.source ∧ get_str (observed_value rule) "destination" = rule.destination ∧
      get_str (observed_value rule) "action" = some rule.action ∧
      (get_num (observed_value rule) "port").map UInt16.ofNat = rule.port := by
  obtain ⟨name, table, chain, protocol, port, source, destination, action, family⟩ := rule
  cases port <;> cases source <;> cases destination <;>
    simp [observed_value, optional_field, get_str, get_num, Value.get, Value.as_str, of_port, of_nat]

theorem cmp_str_eq_none {field : String} {observed desired : Option String} :
    cmp_str field observed desired = none ↔ observed = desired := by
  rw [cmp_str]
  split <;> simp_all

theorem cmp_port_eq_none {observed desired : Option UInt16} : cmp_port observed desired = none ↔ observed = desired := by
  rw [cmp_port]
  split <;> simp_all

/-- The rule is what the spec asks for, but for the table. -/
structure Agrees (spec : FirewallRuleSpec) (rule : ObservedRule) : Prop where
  chain : rule.chain = spec.chain
  protocol : rule.protocol = spec.protocol
  source : rule.source = spec.source
  destination : rule.destination = spec.destination
  action : rule.action = spec.action
  port : rule.port = spec.port

theorem field_changes_eq_nil : field_changes spec (observed_value rule) = [] ↔ Agrees spec rule := by
  obtain ⟨hchain, hprotocol, hsource, hdestination, haction, hport⟩ := get_observed_value rule
  rw [field_changes, hchain, hprotocol, hsource, hdestination, haction, hport, List.filterMap_eq_nil_iff]
  simp only [List.forall_mem_cons, id_eq, cmp_str_eq_none, cmp_port_eq_none, Option.some.injEq, List.not_mem_nil, false_implies,
    implies_true, and_true]
  exact ⟨fun ⟨hc, hp, hs, hd, ha, hn⟩ => ⟨hc, hp, hs, hd, ha, hn⟩, fun h =>
    ⟨h.chain, h.protocol, h.source, h.destination, h.action, h.port⟩⟩

theorem noChange_of_drift {d : Diff} (hdrift : (ops backend).drift spec host = .ok d) :
    (ops backend).NoChange spec host ↔ d.is_change = false := by
  constructor
  · rintro ⟨d', hdrift', hsame⟩
    exact Except.ok.inj (hdrift'.symm.trans hdrift) ▸ hsame
  · exact fun hsame => ⟨d, hdrift, hsame⟩

theorem noChange_none (h : backend.query spec.name spec.family host = .ok none) :
    (ops backend).NoChange spec host ↔ spec.state = .Absent := by
  have hdrift : (ops backend).drift spec host = .ok (diff spec ⟨false, .null, [("present", .bool false)]⟩) := by
    simp only [Ops.drift, ops, observe, h]
    rfl
  rw [noChange_of_drift hdrift]
  cases hstate : spec.state <;> simp [diff, hstate, Diff.is_change, Diff.no_change]

theorem noChange_some (h : backend.query spec.name spec.family host = .ok (some rule)) :
    (ops backend).NoChange spec host ↔ spec.state = .Present ∧ Agrees spec rule := by
  have hdrift : (ops backend).drift spec host = .ok (diff spec ⟨true, observed_value rule, [("present", .bool true)]⟩) := by
    simp only [Ops.drift, ops, observe, h]
    rfl
  rw [noChange_of_drift hdrift, ← field_changes_eq_nil]
  cases hstate : spec.state with
  | Absent => simp [diff, hstate, Diff.is_change]
  | Present =>
    cases hchanges : field_changes spec (observed_value rule) <;>
      simp [diff, hstate, hchanges, Diff.is_change, Diff.no_change]

/-- The spec of a rule that was there. -/
def of_rule (rule : ObservedRule) : FirewallRuleSpec :=
  { name := rule.name, table := rule.table, chain := rule.chain, protocol := rule.protocol, port := rule.port
    source := rule.source, destination := rule.destination, action := rule.action, family := rule.family }

/-- What a checkpoint holds of a rule. -/
def saved_rule (rule : ObservedRule) : Value :=
  json [("name", .string rule.name), ("table", .string rule.table), ("chain", .string rule.chain),
    ("protocol", .string rule.protocol), ("port", (rule.port.map of_port).getD .null), ("source", of_option rule.source),
    ("destination", of_option rule.destination), ("action", .string rule.action), ("family", .string rule.family.as_str)]

theorem prev_spec_saved (spec : FirewallRuleSpec) (rule : ObservedRule) : prev_spec spec (saved_rule rule) = of_rule rule := by
  obtain ⟨name, table, chain, protocol, port, source, destination, action, family⟩ := rule
  cases port with
  | none =>
    cases source <;> cases destination <;> cases family <;>
      simp [prev_spec, saved_rule, of_rule, get_str, get_num, Value.get_json, Value.as_str, of_option, Family.as_str]
  | some p =>
    have hport : p.toNat < 65536 := p.toNat_lt
    cases source <;> cases destination <;> cases family <;>
      simp [prev_spec, saved_rule, of_rule, get_str, get_num, Value.get_json, Value.as_str, of_option, of_port, of_nat,
        Family.as_str, hport]

theorem rollback_none : rollback backend spec (checkpoint none) =
    backend.ensure_absent spec.name spec.table spec.chain spec.family := by
  have hprevious : (checkpoint none).get "previous" = some .null := rfl
  rw [rollback, hprevious]

/-- A checkpoint is read back as it was taken. -/
theorem rollback_some : rollback backend spec (checkpoint (some rule)) = backend.ensure_present (of_rule rule) := by
  have hprevious : (checkpoint (some rule)).get "previous" = some (saved_rule rule) := rfl
  rw [rollback, hprevious, ← prev_spec_saved spec rule]
  rfl

end Observed

namespace Iptables

section Settled

variable {tool : Iptables} {canonical : Family → String → Option String} {specs : List FirewallRuleSpec}
  {spec c : FirewallRuleSpec} {w : World}

/-- The addresses of the spec are read back as they are written. -/
structure Kept (canonical : Family → String → Option String) (spec : FirewallRuleSpec) : Prop where
  source : spec.source.bind (read_address canonical spec.family) = spec.source
  destination : spec.destination.bind (read_address canonical spec.family) = spec.destination

/-- The addresses of the spec are listed in the same way when they are given as they were read. -/
structure Stable (canonical : Family → String → Option String) (spec : FirewallRuleSpec) : Prop where
  valid : ∀ addr text, spec.source = some addr ∨ spec.destination = some addr →
    read_address canonical spec.family addr = some text → validate_addr text spec.family = .ok ()
  same : ∀ addr text, spec.source = some addr ∨ spec.destination = some addr →
    read_address canonical spec.family addr = some text → canonical spec.family text = canonical spec.family addr

theorem agrees_found_iff : Agrees spec (found_rule canonical spec) ↔ Kept canonical spec :=
  ⟨fun h => ⟨h.source, h.destination⟩, fun h => ⟨rfl, rfl, h.source, h.destination, rfl, rfl⟩⟩

/-- The rule that a rollback adds again. -/
def again (canonical : Family → String → Option String) (c : FirewallRuleSpec) : FirewallRuleSpec := of_rule (found_rule canonical c)

theorem match_again (h : Stable canonical c) : listed canonical (again canonical c) = listed canonical c := by
  have hside {flag : String} {side : Option String}
      (hside : ∀ addr, side = some addr → c.source = some addr ∨ c.destination = some addr) :
      (((side.bind (read_address canonical c.family)).bind (canonical c.family)).elim [] fun s => [flag, s]) =
        (side.bind (canonical c.family)).elim [] fun s => [flag, s] := by
    cases side with
    | none => rfl
    | some addr =>
      cases hread : read_address canonical c.family addr with
      | some text => simp [hread, h.same addr text (hside addr rfl) hread]
      | none =>
        have hnone : canonical c.family addr = none := Option.map_eq_none_iff.mp hread
        simp [hread, hnone]
  have hsource := @hside "-s" c.source fun _ => .inl
  have hdestination := @hside "-d" c.destination fun _ => .inr
  simp only [listed, again, of_rule, found_rule, FirewallRuleSpec.rule, hsource, hdestination]
  rfl

theorem validate_side_read {side : String} {value : Option String}
    (hvalid : ∀ addr text, value = some addr → read_address canonical c.family addr = some text →
      validate_addr text c.family = .ok ()) :
    validate_side side c.family (value.bind (read_address canonical c.family)) = .ok () := by
  cases hread : value.bind (read_address canonical c.family) with
  | none => rfl
  | some text =>
    obtain ⟨addr, haddr, htext⟩ := Option.bind_eq_some_iff.mp hread
    rw [validate_side, hvalid addr text haddr htext]
    rfl

/-- The rule that a rollback adds is a valid one of the table that it was in. -/
theorem valid_again (hc : c.validate = .ok ()) (h : Stable canonical c) :
    { again canonical c with table := c.table }.validate = .ok () := by
  obtain ⟨⟨⟩, hname, hc⟩ := fallible.bind_eq_ok_iff.mp hc
  obtain ⟨⟨⟩, htable, hc⟩ := fallible.bind_eq_ok_iff.mp hc
  obtain ⟨⟨⟩, hchain, hc⟩ := fallible.bind_eq_ok_iff.mp hc
  obtain ⟨⟨⟩, hprotocol, hc⟩ := fallible.bind_eq_ok_iff.mp hc
  obtain ⟨⟨⟩, hport, hc⟩ := fallible.bind_eq_ok_iff.mp hc
  obtain ⟨⟨⟩, -, hc⟩ := fallible.bind_eq_ok_iff.mp hc
  obtain ⟨⟨⟩, -, haction⟩ := fallible.bind_eq_ok_iff.mp hc
  refine fallible.bind_eq_ok_iff.mpr ⟨(), hname, fallible.bind_eq_ok_iff.mpr ⟨(), htable, fallible.bind_eq_ok_iff.mpr ⟨(), hchain,
    fallible.bind_eq_ok_iff.mpr ⟨(), hprotocol, fallible.bind_eq_ok_iff.mpr ⟨(), hport, fallible.bind_eq_ok_iff.mpr ⟨(), ?_,
      fallible.bind_eq_ok_iff.mpr ⟨(), ?_, haction⟩⟩⟩⟩⟩⟩⟩
  · exact validate_side_read fun addr text haddr => h.valid addr text (.inl haddr)
  · exact validate_side_read fun addr text haddr => h.valid addr text (.inr haddr)

/-- A planned step is the one for the state of the spec. -/
theorem action_of_planned {step : Step} {host : Netfilter} (h : (ops (backend tool)).Planned spec host step) :
    FirewallAction.parse step.action = .ok spec.state.action := by
  obtain ⟨id, d, -, hstep⟩ := h
  have hstep : step ∈ plan id spec d := hstep
  rw [plan] at hstep
  split at hstep
  · cases hstep
  · rw [List.mem_singleton.mp hstep]
    cases spec.state <;> rfl

theorem save_runs (hrefusal : AddsOnly tool.refusal) (family : Family) : tool.refusal [bin_save family] = none := by
  by_contra hne
  obtain ⟨bin, table, args, hargv⟩ := hrefusal _ hne
  simp at hargv

/-- What the deletion of the rule leaves is what memory has after it. -/
theorem absent_mirrors {current : Option FirewallRuleSpec} (hdocumented : Documented tool canonical)
    (hdistinct : Distinct tool specs)
    (hbefore : Legible tool.quoted w.kernel) (hmem : spec ∈ specs) (h : Mirrors tool canonical specs spec w current)
    {refusal : List String → Option Refusal} (hrefusal : AddsOnly refusal) {outcome : Except Error Unit} {after : Netfilter}
    (hrun : perform (ensure_absent { tool with refusal } spec.name spec.table spec.chain spec.family) w.kernel =
      (outcome, after)) :
    Legible tool.quoted after ∧ ∃ store, Mirrors tool canonical specs spec { w with kernel := after, store } none := by
  have hlegible := (spares_absent hbefore hmem refusal).legible
  rw [hrun] at hlegible
  obtain ⟨-, rfl⟩ := Prod.mk.inj ((h.absent_eq hbefore hrefusal).symm.trans hrun)
  have herased := h.erase hdocumented hdistinct hmem hmem h
  rw [if_pos ⟨rfl, rfl⟩] at herased
  exact ⟨hlegible, _, herased⟩

/-- The same of the addition of a rule. -/
theorem present_mirrors {current : Option FirewallRuleSpec} (hdocumented : Documented tool canonical)
    (hdistinct : Distinct tool specs)
    (hbefore : Legible tool.quoted w.kernel) (hmem : spec ∈ specs) (h : Mirrors tool canonical specs spec w current)
    {refusal : List String → Option Refusal} (hrefusal : AddsOnly refusal) {outcome : Except Error Unit} {after : Netfilter}
    (hrun : perform (ensure_present { tool with refusal } spec) w.kernel = (outcome, after)) :
    Legible tool.quoted after ∧ ∃ store, Mirrors tool canonical specs spec { w with kernel := after, store }
      (if outcome.isOk then some spec else none) := by
  have hlegible := (spares_present hbefore hdocumented hmem (hdistinct.valid spec hmem) refusal).legible
  rw [hrun] at hlegible
  have herased := h.erase hdocumented hdistinct hmem hmem h
  rw [if_pos ⟨rfl, rfl⟩] at herased
  obtain ⟨e, hfailed⟩ | ⟨hhas, hadded⟩ := @ensure_present_cases { tool with refusal } w.kernel spec canonical
    (fun rule => hdocumented.make spec rule (hdistinct.valid spec hmem)) _ (congrArg Prod.snd (h.absent_eq hbefore hrefusal))
  · obtain ⟨rfl, rfl⟩ := Prod.mk.inj (hfailed.symm.trans hrun)
    exact ⟨hlegible, _, herased⟩
  · obtain ⟨rfl, rfl⟩ := Prod.mk.inj (hadded.symm.trans hrun)
    have hadded := @Mirrors.append _ _ _ spec spec { w with kernel := erased tool spec w.kernel } _
      hdocumented hdistinct hmem hmem hhas
      herased fun _ => rfl
    rw [if_pos ⟨rfl, rfl⟩] at hadded
    exact ⟨hlegible, _, hadded⟩

/-- Where a step was applied for what was observed, nothing is left to change exactly when the spec
wants no rule, or has its addresses in the form in which they are read. -/
theorem applied_settles_iff {k : Netfilter} (hdocumented : Documented tool canonical) (hdistinct : Distinct tool specs)
    (hlegible : Legible tool.quoted k)
    (hnone : ∀ spec ∈ specs, ∀ site, site.family = spec.family → ∀ rule ∈ k.rules site, tagged tool spec.name site rule = false)
    (hrun : Run (World.step tool specs) (lenient tool specs) (World.start tool specs k) w) (hmem : spec ∈ specs)
    (hrefusal : AddsOnly tool.refusal) {step : Step} (hplanned : (ops (backend tool)).Planned spec w.kernel step)
    {checkpoint : Value} {result : StepResult} {after : Netfilter}
    (happly : perform ((ops (backend tool)).apply spec step checkpoint) w.kernel = (.ok result, after)) :
    (ops (backend tool)).NoChange spec after ↔ spec.state = .Absent ∨ Kept canonical spec := by
  obtain ⟨hshared, hmirrored⟩ := mirrored_of_run hdocumented hdistinct hlegible hnone hrun
  obtain ⟨current, h⟩ := hmirrored spec hmem
  have haction := action_of_planned hplanned
  have happly : perform (apply (backend tool) spec step) w.kernel = (.ok result, after) := happly
  rw [apply, haction] at happly
  cases hstate : spec.state with
  | Absent =>
    rw [hstate] at happly
    obtain ⟨u, mid, hdeleted, hreturn⟩ := perform_bind_eq_ok_iff.mp happly
    obtain ⟨hlegible, store, hmirrors⟩ := absent_mirrors hdocumented hdistinct hshared.legible hmem h hrefusal hdeleted
    obtain ⟨-, rfl⟩ := Prod.mk.inj hreturn
    have hquery := hmirrors.query_eq hdocumented hdistinct hmem hlegible (save_runs hrefusal _)
    rw [noChange_none hquery]
    simp [hstate]
  | Present =>
    rw [hstate] at happly
    obtain ⟨u, mid, hadded, hreturn⟩ := perform_bind_eq_ok_iff.mp happly
    obtain ⟨hlegible, store, hmirrors⟩ := present_mirrors hdocumented hdistinct hshared.legible hmem h hrefusal hadded
    obtain ⟨-, rfl⟩ := Prod.mk.inj hreturn
    have hquery := hmirrors.query_eq hdocumented hdistinct hmem hlegible (save_runs hrefusal _)
    rw [noChange_some hquery, agrees_found_iff]
    simp [hstate]

theorem ok_of_toOption {α : Type} {result : Except Error α} {a : α} (h : result.toOption = some a) : result = .ok a := by
  cases result with
  | ok b => exact congrArg Except.ok (Option.some.inj h)
  | error e => cases h

theorem perform_ok_of_toOption {σ α : Type} {p : Prog σ Error α} {s : σ} {a : α} (h : (perform p s).1.toOption = some a) :
    ∃ t, perform p s = (.ok a, t) :=
  ⟨_, Prod.ext (ok_of_toOption h) rfl⟩

/-- A single address with its length is read back without it. -/
def sample_long : FirewallRuleSpec := { sample_ssh with source := some "10.0.0.1/32" }

theorem long_address_drifts : ∃ step result after, (ops (backend sample_tool)).Planned sample_long sample_host step ∧
    perform ((ops (backend sample_tool)).apply sample_long step .null) sample_host = (.ok result, after) ∧
      ¬ (ops (backend sample_tool)).NoChange sample_long after := by
  have hmem : sample_long ∈ [sample_long] := List.mem_singleton_self _
  have hsingle {p : FirewallRuleSpec → Prop} (h : p sample_long) : ∀ spec ∈ [sample_long], p spec := by
    intro spec hspec
    rw [List.mem_singleton.mp hspec]
    exact h
  have hdistinct : Distinct sample_tool [sample_long] := by
    refine ⟨hsingle (by decide), hsingle (hsingle fun _ _ => rfl), hsingle (hsingle fun _ hname => absurd rfl hname)⟩
  have hnone : ∀ spec ∈ [sample_long], ∀ site, site.family = spec.family → ∀ rule ∈ sample_host.rules site,
      tagged sample_tool spec.name site rule = false :=
    hsingle (sample_untagged sample_ssh (by simp [sample_specs]))
  have hplanned : (ops (backend sample_tool)).Planned sample_long sample_host
      (Step.new 0 "firewall.upsert" "firewall.rule/ssh" (json [("name", .string "ssh")])) :=
    ⟨0, _, rfl, List.mem_singleton_self _⟩
  obtain ⟨after, happly⟩ : ∃ after, perform ((ops (backend sample_tool)).apply sample_long
      (Step.new 0 "firewall.upsert" "firewall.rule/ssh" (json [("name", .string "ssh")])) .null) sample_host =
      (.ok (.ok "upserted firewall rule ssh"), after) :=
    ⟨_, Prod.ext rfl rfl⟩
  have hsettles := applied_settles_iff sample_documented hdistinct sample_legible hnone .start hmem
    (fun _ hrefused => absurd rfl hrefused) hplanned happly
  refine ⟨_, _, after, hplanned, happly, hsettles.not.mpr ?_⟩
  have hread : sample_long.source.bind (read_address sample_canonical sample_long.family) ≠ sample_long.source := by
    decide
  rintro (habsent | hkept)
  · cases habsent
  · exact hread hkept.source

/-- After a step, whatever became of it, the spec has one rule or none. -/
theorem step_mirrors {current : Option FirewallRuleSpec} (hdocumented : Documented tool canonical)
    (hdistinct : Distinct tool specs)
    (hbefore : Legible tool.quoted w.kernel) (hmem : spec ∈ specs) (h : Mirrors tool canonical specs spec w current)
    {refusal : List String → Option Refusal} (hrefusal : AddsOnly refusal) (step : Step) :
    ∃ store mine, Legible tool.quoted (perform (apply (backend { tool with refusal }) spec step) w.kernel).2 ∧
      Mirrors tool canonical specs spec
        { w with kernel := (perform (apply (backend { tool with refusal }) spec step) w.kernel).2, store } mine := by
  rw [apply]
  split
  · exact ⟨w.store, current, hbefore, h⟩
  · rw [perform_bind_pure_snd]
    obtain ⟨hlegible, store, hmirrors⟩ := present_mirrors hdocumented hdistinct hbefore hmem h hrefusal rfl
    exact ⟨store, _, hlegible, hmirrors⟩
  · rw [perform_bind_pure_snd]
    obtain ⟨hlegible, store, hmirrors⟩ := absent_mirrors hdocumented hdistinct hbefore hmem h hrefusal rfl
    exact ⟨store, none, hlegible, hmirrors⟩

/-- What a rollback adds is the rule that was there, in the table `filter`. -/
theorem again_added (hdocumented : Documented tool canonical) (hc : c.validate = .ok ()) (hstable : Stable canonical c)
    {refusal : List String → Option Refusal} {mid base u : Netfilter}
    (hbase : (perform (ensure_absent { tool with refusal } c.name "filter" c.chain c.family) mid).2 = base)
    (hrun : perform (ensure_present { tool with refusal } (again canonical c)) mid = (.ok (), u)) :
    u = base.set ⟨c.family, "filter", c.chain⟩ (base.rules ⟨c.family, "filter", c.chain⟩ ++ [listed canonical c]) := by
  have hmade : ∀ rule, tool.make (again canonical c).family (match_args (again canonical c)) = .ok rule →
      rule = listed canonical (again canonical c) :=
    fun rule hmake => hdocumented.make { again canonical c with table := c.table } rule (valid_again hc hstable) hmake
  obtain ⟨e, hfailed⟩ | ⟨-, hadded⟩ :=
    @ensure_present_cases { tool with refusal } mid (again canonical c) canonical hmade base hbase
  · cases hfailed.symm.trans hrun
  · obtain ⟨-, rfl⟩ := Prod.mk.inj (hadded.symm.trans hrun)
    rw [match_again hstable]
    rfl

/-- When a step is rolled back, the rule of the spec is as before it exactly when there was none or
the rules of the spec are in the table `filter`. -/
theorem rollback_restores_iff {k : Netfilter} (hdocumented : Documented tool canonical) (hdistinct : Distinct tool specs)
    (hlegible : Legible tool.quoted k) (hstable : ∀ spec ∈ specs, Stable canonical spec)
    (hnone : ∀ spec ∈ specs, ∀ site, site.family = spec.family → ∀ rule ∈ k.rules site, tagged tool spec.name site rule = false)
    (hrun : Run (World.step tool specs) (lenient tool specs) (World.start tool specs k) w) (hmem : spec ∈ specs)
    (hsave : tool.refusal [bin_save spec.family] = none) {checkpoint : Value}
    (hcheckpoint : pre_apply (backend tool) spec w.kernel = .ok checkpoint) {refusal refusal' : List String → Option Refusal}
    (hrefusal : AddsOnly refusal) (hrefusal' : AddsOnly refusal') {step : Step} {u : Netfilter}
    (hrollback : perform (rollback (backend { tool with refusal := refusal' }) spec checkpoint)
      (perform (apply (backend { tool with refusal }) spec step) w.kernel).2 = (.ok (), u)) :
    (∀ site, site.family = spec.family →
      (u.rules site).filter (tagged tool spec.name site) = (w.kernel.rules site).filter (tagged tool spec.name site)) ↔
        query tool spec.name spec.family w.kernel = .ok none ∨ spec.table = "filter" := by
  obtain ⟨hshared, hmirrored⟩ := mirrored_of_run hdocumented hdistinct hlegible hnone hrun
  obtain ⟨current, h⟩ := hmirrored spec hmem
  have hquery := h.query_eq hdocumented hdistinct hmem hshared.legible hsave
  obtain ⟨store, mine, hmid, hmine⟩ := step_mirrors hdocumented hdistinct hshared.legible hmem h hrefusal step
  generalize (perform (apply (backend { tool with refusal }) spec step) w.kernel).2 = mid at hmid hmine hrollback
  have hcheckpoint : (query tool spec.name spec.family w.kernel).map firewall.checkpoint = .ok checkpoint := hcheckpoint
  rw [hquery] at hcheckpoint
  obtain rfl := Except.ok.inj hcheckpoint
  cases current with
  | none =>
    rw [Option.map_none, rollback_none] at hrollback
    obtain ⟨-, store', hafter⟩ := absent_mirrors hdocumented hdistinct hmid hmem hmine hrefusal' hrollback
    refine iff_of_true (fun site hsite => ?_) (.inl hquery)
    exact (hafter.kernel site hsite).trans (h.kernel site hsite).symm
  | some c =>
    rw [Option.map_some, rollback_some] at hrollback
    obtain ⟨hin, hname, hfamily, -⟩ := h.mem c rfl
    have hsite := h.site_eq hdistinct hmem rfl
    have hchain : c.chain = spec.chain := congrArg Site.chain hsite
    have htag : tagged tool spec.name c.site (listed canonical c) = true :=
      (hdistinct.tagged_iff hdocumented hmem hin hfamily.symm).mpr hname.symm
    have hadded {base : Netfilter} := @again_added _ _ c hdocumented (hdistinct.valid c hin) (hstable c hin) refusal' mid base u
    by_cases htable : spec.table = "filter"
    · refine iff_of_true (fun site hother => ?_) (.inr htable)
      have hwhere : (⟨c.family, "filter", c.chain⟩ : Site) = spec.site := by
        rw [hfamily, hchain, ← htable]
        rfl
      have hdeleted : perform (ensure_absent { tool with refusal := refusal' } c.name "filter" c.chain c.family) mid =
          (.ok (), erased tool spec mid) := by
        rw [hname, hfamily, hchain, ← htable]
        exact hmine.absent_eq hmid hrefusal'
      have herased := hmine.erase hdocumented hdistinct hmem hmem hmine
      rw [if_pos ⟨rfl, rfl⟩] at herased
      have hempty : ((erased tool spec mid).rules site).filter (tagged tool spec.name site) = [] := herased.kernel site hother
      rw [hadded (congrArg Prod.snd hdeleted) hrollback, h.kernel site hother, hwhere, set_rules]
      split
      · next hsame =>
        rw [hsame] at hempty ⊢
        rw [List.filter_append, hempty, List.filter_cons_of_pos (hsite ▸ htag)]
        simp [hsite]
      · next hother =>
        have hne : (c.site == site) = false := by
          rw [beq_eq_false_iff_ne, hsite]
          exact fun heq => hother heq.symm
        rw [hempty]
        simp [hne]
    · refine iff_of_false (fun hall => ?_) ?_
      · have hsame := hall ⟨c.family, "filter", c.chain⟩ hfamily
        have hthere : listed canonical c ∈ (u.rules ⟨c.family, "filter", c.chain⟩).filter
            (tagged tool spec.name ⟨c.family, "filter", c.chain⟩) := by
          rw [hadded rfl hrollback, set_rules, if_pos rfl]
          exact List.mem_filter.mpr ⟨List.mem_append_right _ (List.mem_singleton_self _), htag⟩
        rw [hsame] at hthere
        obtain ⟨hrule, htagged⟩ := List.mem_filter.mp hthere
        obtain ⟨d, hd, hplace, -⟩ := h.tagged_only hfamily hrule htagged
        obtain rfl := Option.some.inj hd
        exact htable (congrArg Site.table (hsite.symm.trans hplace))
      · rw [hquery]
        simp [htable]

/-- A rule that was deleted, and then could not be added, is brought back. -/
theorem ssh_is_restored : ∃ checkpoint u, pre_apply (backend sample_tool) sample_ssh sample_last.kernel = .ok checkpoint ∧
    perform (rollback (backend sample_tool) sample_ssh checkpoint)
      (perform (apply (backend { sample_tool with refusal := locked }) sample_ssh
        (Step.new 0 "firewall.upsert" "firewall.rule/ssh" .null)) sample_last.kernel).2 = (.ok (), u) ∧
    (u.rules input).filter (tagged sample_tool "ssh" input) =
      (sample_last.kernel.rules input).filter (tagged sample_tool "ssh" input) := by
  have hstable : ∀ spec ∈ sample_specs, Stable sample_canonical spec := by
    intro spec hspec
    simp only [sample_specs, List.mem_cons, List.not_mem_nil, or_false] at hspec
    obtain rfl | rfl := hspec
    · have hread : read_address sample_canonical .Ipv4 "10.0.0.1" = some "10.0.0.1" ∧
          validate_addr "10.0.0.1" .Ipv4 = .ok () := by
        decide
      have hsame {addr text : String} (haddr : sample_ssh.source = some addr ∨ sample_ssh.destination = some addr)
          (htext : read_address sample_canonical .Ipv4 addr = some text) : addr = "10.0.0.1" ∧ text = "10.0.0.1" := by
        obtain haddr | haddr := haddr
        · obtain rfl := Option.some.inj haddr
          exact ⟨rfl, Option.some.inj (htext.symm.trans hread.1)⟩
        · cases haddr
      refine ⟨fun addr text haddr htext => ?_, fun addr text haddr htext => ?_⟩
      · obtain ⟨rfl, rfl⟩ := hsame haddr htext
        exact hread.2
      · obtain ⟨rfl, rfl⟩ := hsame haddr htext
        rfl
    · exact ⟨fun addr text haddr => by cases haddr <;> contradiction, fun addr text haddr => by cases haddr <;> contradiction⟩
  have hlocked : AddsOnly locked := by
    intro argv hrefused
    unfold locked at hrefused
    split at hrefused
    · exact ⟨_, _, _, rfl⟩
    · exact absurd rfl hrefused
  have hquery : query sample_tool "ssh" .Ipv4 sample_last.kernel = .ok (some sample_ssh.rule) :=
    ok_of_toOption (by decide +kernel)
  have hcheckpoint : pre_apply (backend sample_tool) sample_ssh sample_last.kernel = .ok (checkpoint (some sample_ssh.rule)) :=
    congrArg (Except.map checkpoint) hquery
  obtain ⟨u, hrollback⟩ : ∃ u, perform (rollback (backend sample_tool) sample_ssh (checkpoint (some sample_ssh.rule)))
      (perform (apply (backend { sample_tool with refusal := locked }) sample_ssh
        (Step.new 0 "firewall.upsert" "firewall.rule/ssh" .null)) sample_last.kernel).2 = (.ok (), u) :=
    perform_ok_of_toOption (by decide +kernel)
  refine ⟨_, u, hcheckpoint, hrollback, ?_⟩
  have hrestored := rollback_restores_iff sample_documented sample_distinct sample_legible hstable sample_untagged sample_run
    (by simp [sample_specs] : sample_ssh ∈ sample_specs) rfl hcheckpoint hlocked (fun _ hrefused => absurd rfl hrefused)
    hrollback
  exact hrestored.mpr (.inr rfl) input rfl

end Settled

end Iptables

end iac_providers.firewall
