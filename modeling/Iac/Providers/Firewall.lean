import Iac.Core.Numeral
import Iac.Core.Protocol
import Iac.Core.Provider
import Iac.Core.Text
import Iac.Providers.Lifecycle
import Mathlib.Tactic.Tauto

open effect iac_core iac_core.executor iac_core.protocol serde_json

namespace iac_providers.firewall

inductive FirewallState where
  | Present
  | Absent
  deriving DecidableEq, Repr

inductive Family where
  | Ipv4
  | Ipv6
  deriving DecidableEq, Repr

def Family.as_str : Family → String
  | .Ipv4 => "ipv4"
  | .Ipv6 => "ipv6"

structure FirewallRuleSpec where
  name : String
  table : String := "filter"
  chain : String
  protocol : String := "all"
  port : Option UInt16 := none
  source : Option String := none
  destination : Option String := none
  action : String
  family : Family := .Ipv4
  state : FirewallState := .Present

section Validation

def debug_list (items : List String) : String := "[" ++ ", ".intercalate (items.map str.debug) ++ "]"

def is_name_char (c : Char) : Bool := c.isAlphanum || c == '-' || c == '_' || c == '.'

def validate_name (name : String) : Except String Unit :=
  if name.toList.isEmpty then .error "name must not be empty"
  else if 200 < name.utf8ByteSize then .error ("name " ++ str.debug name ++ " exceeds 200 chars (iptables --comment cap)")
  else if !name.toList.all is_name_char then
    .error ("name " ++ str.debug name ++ " must be alphanumeric with optional '-', '_', '.'")
  else .ok ()

def validate_table (table : String) : Except String Unit :=
  if ["filter", "nat", "mangle"].contains table then .ok ()
  else .error ("table " ++ str.debug table ++ " must be one of: filter, nat, mangle")

/-- The chains of a table. -/
def chains_of (table : String) : Option (List String) :=
  if table = "filter" then some ["INPUT", "OUTPUT", "FORWARD"]
  else if table = "nat" then some ["PREROUTING", "POSTROUTING", "OUTPUT", "INPUT"]
  else if table = "mangle" then some ["PREROUTING", "POSTROUTING", "INPUT", "OUTPUT", "FORWARD"]
  else none

def validate_chain (table chain : String) : Except String Unit :=
  match chains_of table with
  | none => .error ("unknown table " ++ str.debug table)
  | some valid =>
    if valid.contains chain then .ok ()
    else
      .error ("chain " ++ str.debug chain ++ " not valid for table " ++ str.debug table ++ "; must be one of: " ++
        debug_list valid)

def validate_protocol (protocol : String) : Except String Unit :=
  if ["tcp", "udp", "icmp", "all"].contains protocol then .ok ()
  else .error ("protocol " ++ str.debug protocol ++ " must be one of: tcp, udp, icmp, all")

def validate_action (action : String) : Except String Unit :=
  if ["ACCEPT", "DROP", "REJECT"].contains action then .ok ()
  else .error ("action " ++ str.debug action ++ " must be one of: ACCEPT, DROP, REJECT")

/-- A port for exactly the protocols that have ports. -/
def validate_port (protocol : String) (port : Option UInt16) : Except String Unit :=
  if (protocol = "tcp" ∨ protocol = "udp") ∧ port = none then
    .error ("protocol " ++ str.debug protocol ++ " requires `port`")
  else if (protocol = "icmp" ∨ protocol = "all") ∧ port ≠ none then
    .error ("protocol " ++ str.debug protocol ++ " must not set `port` (port is meaningless for non-tcp/udp)")
  else if port = some 0 then .error "port must be 1..=65535"
  else .ok ()

def is_disallowed (c : Char) : Bool :=
  c == ' ' || c == '\t' || c == '\n' || c == ';' || c == '"' || c == '\'' || c == '\x60' || c == '\\'

def is_hexdigit (c : Char) : Bool :=
  c.isDigit || ('a' ≤ c && c ≤ 'f') || ('A' ≤ c && c ≤ 'F')

def validate_octet (addr : String) (octet : List Char) : Except String Unit :=
  match num.from_str_radix 10 65536 octet with
  | none => .error (str.debug addr ++ " octet " ++ str.debug (String.ofList octet) ++ " not a number")
  | some n => if 255 < n then .error (str.debug addr ++ " octet " ++ String.ofList octet ++ " out of range 0..=255") else .ok ()

def validate_prefix (addr kind : String) (greatest : Nat) : Option (List Char) → Except String Unit
  | none => .ok ()
  | some bits =>
    match num.from_str_radix 10 256 bits with
    | none => .error (str.debug addr ++ " prefix " ++ str.debug (String.ofList bits) ++ " not a number")
    | some n =>
      if greatest < n then
        .error (str.debug addr ++ " " ++ kind ++ " prefix " ++ toString n ++ " out of range 0..=" ++ toString greatest)
      else .ok ()

def validate_addr (addr : String) (family : Family) : Except String Unit :=
  if addr.toList.isEmpty then .error "must not be empty"
  else if addr.toList.any is_disallowed then
    .error (str.debug addr ++ " contains a disallowed character (whitespace or shell meta)")
  else
    let (host, bits) := match split_once '/' addr.toList with
      | some (h, p) => (h, some p)
      | none => (addr.toList, none)
    match family with
    | .Ipv4 =>
      let octets := host.splitOn '.'
      if octets.length ≠ 4 then .error (str.debug addr ++ " not a valid IPv4 address (4 octets expected)")
      else do
        let _ ← octets.mapM (validate_octet addr)
        validate_prefix addr "IPv4" 32 bits
    | .Ipv6 =>
      if !host.contains ':' then .error (str.debug addr ++ " not a valid IPv6 address (':' expected)")
      else if !host.all fun c => is_hexdigit c || c == ':' then .error (str.debug addr ++ " contains non-hex characters")
      else validate_prefix addr "IPv6" 128 bits

def validate_side (side : String) (family : Family) : Option String → Except String Unit
  | none => .ok ()
  | some addr => (validate_addr addr family).mapError fun e => side ++ ": " ++ e

def FirewallRuleSpec.validate (spec : FirewallRuleSpec) : Except String Unit := do
  validate_name spec.name
  validate_table spec.table
  validate_chain spec.table spec.chain
  validate_protocol spec.protocol
  validate_port spec.protocol spec.port
  validate_side "source" spec.family spec.source
  validate_side "destination" spec.family spec.destination
  validate_action spec.action

theorem is_name_char_graphic {c : Char} (h : is_name_char c = true) : 34 < c.toNat ∧ c.toNat < 127 := by
  have hcode : c.val.toNat = c.toNat := rfl
  have halpha : c.isAlphanum = (decide (c.val ≥ 65 ∧ c.val ≤ 90) || decide (c.val ≥ 97) && decide (c.val ≤ 122) ||
      decide (c.val ≥ 48) && decide (c.val ≤ 57)) := rfl
  simp only [is_name_char, halpha, Bool.or_eq_true, Bool.and_eq_true, decide_eq_true_eq, UInt32.le_iff_toNat_le, ge_iff_le,
    hcode, beq_iff_eq] at h
  obtain (((((⟨hlow, hhigh⟩ | ⟨hlow, hhigh⟩) | ⟨hlow, hhigh⟩) | rfl) | rfl) | rfl) := h
  · simp at hlow hhigh
    omega
  · simp at hlow hhigh
    omega
  · simp at hlow hhigh
    omega
  · decide
  · decide
  · decide

/-- What an accepted spec is made of. -/
structure FirewallRuleSpec.Valid (spec : FirewallRuleSpec) : Prop where
  name_ne : spec.name.toList ≠ []
  name : ∀ c ∈ spec.name.toList, is_name_char c = true
  chain : spec.chain ∈ ["INPUT", "OUTPUT", "FORWARD", "PREROUTING", "POSTROUTING"]
  protocol : spec.protocol ∈ ["tcp", "udp", "icmp", "all"]
  port : spec.port ≠ none ↔ spec.protocol = "tcp" ∨ spec.protocol = "udp"
  source : ∀ addr, spec.source = some addr → validate_addr addr spec.family = .ok ()
  destination : ∀ addr, spec.destination = some addr → validate_addr addr spec.family = .ok ()
  action : spec.action ∈ ["ACCEPT", "DROP", "REJECT"]

theorem validate_chain_ok {table chain : String} (h : validate_chain table chain = .ok ()) :
    chain ∈ ["INPUT", "OUTPUT", "FORWARD", "PREROUTING", "POSTROUTING"] := by
  rw [validate_chain] at h
  split at h
  · cases h
  · next valid hvalid =>
    split_ifs at h with hmem
    have hmem : chain ∈ valid := by simpa using hmem
    rw [chains_of] at hvalid
    split_ifs at hvalid
    all_goals
      obtain rfl := Option.some.inj hvalid
      simp only [List.mem_cons, List.not_mem_nil, or_false] at hmem ⊢
      tauto

theorem validate_side_ok {side addr : String} {family : Family} {value : Option String}
    (h : validate_side side family value = .ok ()) (hvalue : value = some addr) : validate_addr addr family = .ok () := by
  subst hvalue
  rw [validate_side] at h
  cases haddr : validate_addr addr family with
  | ok u => rfl
  | error e =>
    rw [haddr] at h
    cases h

theorem validate_port_ok {protocol : String} {port : Option UInt16} (hprotocol : protocol ∈ ["tcp", "udp", "icmp", "all"])
    (h : validate_port protocol port = .ok ()) : port ≠ none ↔ protocol = "tcp" ∨ protocol = "udp" := by
  rw [validate_port] at h
  split_ifs at h with hneeds hforbids
  simp only [List.mem_cons, List.not_mem_nil, or_false] at hprotocol
  constructor
  · intro hport
    obtain rfl | rfl | rfl | rfl := hprotocol
    · exact .inl rfl
    · exact .inr rfl
    · exact absurd ⟨.inl rfl, hport⟩ hforbids
    · exact absurd ⟨.inr rfl, hport⟩ hforbids
  · exact fun hprotocol hport => hneeds ⟨hprotocol, hport⟩

theorem FirewallRuleSpec.valid {spec : FirewallRuleSpec} (h : spec.validate = .ok ()) : spec.Valid := by
  obtain ⟨⟨⟩, hname, h⟩ := fallible.bind_eq_ok_iff.mp h
  obtain ⟨⟨⟩, -, h⟩ := fallible.bind_eq_ok_iff.mp h
  obtain ⟨⟨⟩, hchain, h⟩ := fallible.bind_eq_ok_iff.mp h
  obtain ⟨⟨⟩, hprotocol, h⟩ := fallible.bind_eq_ok_iff.mp h
  obtain ⟨⟨⟩, hport, h⟩ := fallible.bind_eq_ok_iff.mp h
  obtain ⟨⟨⟩, hsource, h⟩ := fallible.bind_eq_ok_iff.mp h
  obtain ⟨⟨⟩, hdestination, haction⟩ := fallible.bind_eq_ok_iff.mp h
  have hprotocol : spec.protocol ∈ ["tcp", "udp", "icmp", "all"] := by
    rw [validate_protocol] at hprotocol
    split_ifs at hprotocol with hmem
    simpa using hmem
  rw [validate_name] at hname
  split_ifs at hname with hempty hlong hchars
  refine ⟨by simpa using hempty, ?_, validate_chain_ok hchain, hprotocol, validate_port_ok hprotocol hport,
    fun _ => validate_side_ok hsource, fun _ => validate_side_ok hdestination, ?_⟩
  · rw [Bool.not_eq_true, Bool.not_eq_false'] at hchars
    exact List.all_eq_true.mp hchars
  · rw [validate_action] at haction
    split_ifs at haction with hmem
    simpa using hmem

end Validation

section Reading

def read_state (v : Value) : Except String FirewallState := state_field .Present .Absent v

def read_family (v : Value) : Except String Family :=
  match v.get "family" with
  | none => .ok .Ipv4
  | some (.string "ipv4") => .ok .Ipv4
  | some (.string "ipv6") => .ok .Ipv6
  | some _ => .error "unknown variant, expected `ipv4` or `ipv6`"

def read_port (v : Value) : Except String (Option UInt16) :=
  match v.get "port" with
  | none | some .null => .ok none
  | some (.number (.PosInt n)) =>
    if n < 65536 then .ok (some (.ofNat n)) else .error ("invalid value: integer `" ++ toString n ++ "`, expected u16")
  | some _ => .error "invalid type for port, expected u16"

/-- A field with a default. -/
def default_field (v : Value) (key default : String) : Except String String :=
  match v.get key with
  | none => .ok default
  | some _ => string_field v key

def fields : List String :=
  ["name", "table", "chain", "protocol", "port", "source", "destination", "action", "family", "state"]

/-- Unknown fields are refused. -/
def FirewallRuleSpec.from_value (v : Value) : Except String FirewallRuleSpec :=
  match v with
  | .object entries =>
    if entries.any fun f => !fields.contains f.1 then .error "unknown field"
    else do
      let spec : FirewallRuleSpec :=
        { name := ← string_field v "name", table := ← default_field v "table" "filter", chain := ← string_field v "chain"
          protocol := ← default_field v "protocol" "all", port := ← read_port v, source := ← option_field v "source"
          destination := ← option_field v "destination", action := ← string_field v "action"
          family := ← read_family v, state := ← read_state v }
      spec.validate
      return spec
  | _ => .error "invalid type, expected struct FirewallRuleSpec"

theorem FirewallRuleSpec.from_value_ok {v : Value} {spec : FirewallRuleSpec} (h : from_value v = .ok spec) :
    spec.validate = .ok () := by
  rw [from_value.eq_def] at h
  split at h
  · split_ifs at h
    simp only [fallible.bind_eq_ok_iff] at h
    obtain ⟨name, -, table, -, chain, -, protocol, -, port, -, source, -, destination, -, action, -, family, -, state, -,
      ⟨⟩, hvalid, heq⟩ := h
    obtain rfl := Except.ok.inj heq
    exact hvalid
  · cases h

end Reading

/-- What a backend finds of a rule. -/
structure ObservedRule where
  name : String
  table : String
  chain : String
  protocol : String
  port : Option UInt16
  source : Option String
  destination : Option String
  action : String
  family : Family
  deriving DecidableEq

structure FirewallBackend (Host : Type) where
  query : String → Family → Host → Except Error (Option ObservedRule)
  ensure_present : FirewallRuleSpec → Prog Host Error Unit
  ensure_absent : String → String → String → Family → Prog Host Error Unit

def provider_error (message : String) : Error := .Provider "firewall" message

/-- The rule that a spec asks for. -/
def FirewallRuleSpec.rule (spec : FirewallRuleSpec) : ObservedRule :=
  { name := spec.name, table := spec.table, chain := spec.chain, protocol := spec.protocol, port := spec.port
    source := spec.source, destination := spec.destination, action := spec.action, family := spec.family }

namespace MockFirewall

def is_rule (name : String) (family : Family) (r : ObservedRule) : Bool := r.name == name && r.family == family

def query (name : String) (family : Family) (rules : List ObservedRule) : Option ObservedRule :=
  rules.find? (is_rule name family)

def ensure_absent (name : String) (family : Family) (rules : List ObservedRule) : List ObservedRule :=
  rules.filter fun r => !is_rule name family r

def ensure_present (spec : FirewallRuleSpec) (rules : List ObservedRule) : List ObservedRule :=
  ensure_absent spec.name spec.family rules ++ [spec.rule]

/-- The rules in memory, in place of those of the kernel. -/
def backend : FirewallBackend (List ObservedRule) where
  query name family rules := .ok (query name family rules)
  ensure_present spec := modify (ensure_present spec)
  ensure_absent name _ _ family := modify (ensure_absent name family)

end MockFirewall

section Operations

variable {Host : Type} (backend : FirewallBackend Host)

def of_port (port : UInt16) : Value := of_nat port.toNat

def optional_field (key : String) (value : Option Value) : List (String × Value) := (value.map fun v => (key, v)).toList

def observe (spec : FirewallRuleSpec) (host : Host) : Except Error ObservedState := do
  match ← backend.query spec.name spec.family host with
  | none => return ⟨false, .null, [("present", .bool false)]⟩
  | some rule => return {
      present := true
      spec := .object ([("name", .string rule.name), ("chain", .string rule.chain), ("protocol", .string rule.protocol)] ++
        optional_field "port" (rule.port.map of_port) ++ optional_field "source" (rule.source.map .string) ++
        optional_field "destination" (rule.destination.map .string) ++
        [("action", .string rule.action), ("family", .string rule.family.as_str)])
      facts := [("present", .bool true)] }

/-- `cmp_str!`: the change of a field, with the reason for it. -/
def cmp_str (field : String) (observed desired : Option String) : Option (FieldChange × String) :=
  if observed = desired then none
  else some (⟨field, observed.map .string, desired.map .string, false⟩,
    field ++ " " ++ str.debug (observed.getD "") ++ " -> " ++ str.debug (desired.getD ""))

def debug_port : Option UInt16 → String
  | some p => "Some(" ++ toString p.toNat ++ ")"
  | none => "None"

def cmp_port (observed desired : Option UInt16) : Option (FieldChange × String) :=
  if observed = desired then none
  else some (⟨"port", observed.map of_port, desired.map of_port, false⟩,
    "port " ++ debug_port observed ++ " -> " ++ debug_port desired)

def get_str (observed : Value) (key : String) : Option String := (observed.get key).bind Value.as_str

def get_num (observed : Value) (key : String) : Option Nat :=
  match observed.get key with
  | some (.number (.PosInt n)) => some n
  | _ => none

/-- The fields that differ. The table is not among those compared. -/
def field_changes (spec : FirewallRuleSpec) (observed : Value) : List (FieldChange × String) :=
  [cmp_str "chain" (get_str observed "chain") (some spec.chain),
    cmp_str "protocol" (get_str observed "protocol") (some spec.protocol),
    cmp_str "source" (get_str observed "source") spec.source,
    cmp_str "destination" (get_str observed "destination") spec.destination,
    cmp_str "action" (get_str observed "action") (some spec.action),
    cmp_port ((get_num observed "port").map UInt16.ofNat) spec.port].filterMap id

def diff (spec : FirewallRuleSpec) (observed : ObservedState) : Diff :=
  let present := match observed.facts.lookup "present" with
    | some (.bool b) => b
    | _ => false
  match spec.state, present with
  | .Absent, false => .no_change
  | .Absent, true =>
    { kind := .Update, changes := [⟨"present", some (.bool true), some (.bool false), false⟩]
      reasons := ["delete firewall rule " ++ spec.name], reversible := true }
  | .Present, false =>
    { kind := .Create, changes := [⟨"present", some (.bool false), some (.bool true), false⟩]
      reasons := ["create firewall rule " ++ spec.name], reversible := true }
  | .Present, true =>
    match field_changes spec observed.spec with
    | [] => .no_change
    | changes => { kind := .Update, changes := changes.map Prod.fst, reasons := changes.map Prod.snd, reversible := true }

inductive FirewallAction where
  | Upsert
  | Delete

def FirewallAction.as_str : FirewallAction → String
  | .Upsert => "firewall.upsert"
  | .Delete => "firewall.delete"

def FirewallAction.parse : String → Except Error FirewallAction
  | "firewall.upsert" => .ok .Upsert
  | "firewall.delete" => .ok .Delete
  | other => .error (.Provider "FirewallAction" ("unknown step action " ++ str.debug other))

def FirewallState.action : FirewallState → FirewallAction
  | .Present => .Upsert
  | .Absent => .Delete

def plan (id : Ulid) (spec : FirewallRuleSpec) (diff : Diff) : List Step :=
  if !diff.is_change then []
  else [Step.new id spec.state.action.as_str ("firewall.rule/" ++ spec.name) (json [("name", .string spec.name)])]

/-- The checkpoint of what was found. -/
def checkpoint (previous : Option ObservedRule) : Value :=
  json [("previous", match previous with
    | none => .null
    | some r => json [("name", .string r.name), ("table", .string r.table), ("chain", .string r.chain),
        ("protocol", .string r.protocol), ("port", (r.port.map of_port).getD .null), ("source", of_option r.source),
        ("destination", of_option r.destination), ("action", .string r.action), ("family", .string r.family.as_str)])]

def pre_apply (spec : FirewallRuleSpec) (host : Host) : Except Error Value :=
  (backend.query spec.name spec.family host).map checkpoint

def apply (spec : FirewallRuleSpec) (step : Step) : Prog Host Error StepResult :=
  match FirewallAction.parse step.action with
  | .error e => throw e
  | .ok .Upsert => do
    backend.ensure_present spec
    return .ok ("upserted firewall rule " ++ spec.name)
  | .ok .Delete => do
    backend.ensure_absent spec.name spec.table spec.chain spec.family
    return .ok ("deleted firewall rule " ++ spec.name)

/-- The spec of the rule in a checkpoint. What is missing gets a default. -/
def prev_spec (spec : FirewallRuleSpec) (p : Value) : FirewallRuleSpec :=
  { name := (get_str p "name").getD spec.name
    table := (get_str p "table").getD "filter"
    chain := (get_str p "chain").getD "INPUT"
    protocol := (get_str p "protocol").getD "all"
    port := (get_num p "port").bind fun n => if n < 65536 then some (.ofNat n) else none
    source := get_str p "source"
    destination := get_str p "destination"
    action := (get_str p "action").getD "ACCEPT"
    family := if get_str p "family" = some "ipv6" then .Ipv6 else .Ipv4
    state := .Present }

def rollback (spec : FirewallRuleSpec) (checkpoint : Value) : Prog Host Error Unit :=
  match checkpoint.get "previous" with
  | some .null | none => backend.ensure_absent spec.name spec.table spec.chain spec.family
  | some p => backend.ensure_present (prev_spec spec p)

def ops : Ops Host FirewallRuleSpec where
  observe := observe backend
  diff spec observed := .ok (diff spec observed)
  plan := plan
  pre_apply := pre_apply backend
  apply spec step _ := apply backend spec step
  rollback := rollback backend

def provider (id : Ulid) : executor.Provider Host :=
  (ops backend).provider "firewall.rule" FirewallRuleSpec.from_value id fun _ => .null

end Operations

end iac_providers.firewall
