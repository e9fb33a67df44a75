import Iac.Collections.Words
import Iac.Core.Text
import Iac.Providers.Firewall
import Mathlib.Data.List.Infix
import Mathlib.Logic.Function.Basic

open effect iac_core iac_core.executor tokens

namespace iac_providers.firewall

/-- A chain of a table of a family. -/
structure Site where
  family : Family
  table : String
  chain : String
  deriving DecidableEq

def FirewallRuleSpec.site (spec : FirewallRuleSpec) : Site := ⟨spec.family, spec.table, spec.chain⟩

/-- A rule: the arguments that are listed of it after its chain. -/
abbrev Rule := List String

/-- What becomes of a packet that no rule takes. -/
inductive Policy where
  | ACCEPT
  | DROP

def Policy.as_str : Policy → String
  | .ACCEPT => "ACCEPT"
  | .DROP => "DROP"

/-- A chain that was added has no policy. -/
structure Chain where
  name : String
  policy : Option Policy

structure Table where
  name : String
  chains : List Chain

/-- The tables of each family in the order in which they are saved, and the rules of their chains. -/
structure Netfilter where
  tables : Family → List Table
  rules : Site → List Rule

namespace Netfilter

def has (k : Netfilter) (site : Site) : Bool :=
  (k.tables site.family).any fun t => t.name == site.table && t.chains.any fun c => c.name == site.chain

def set (k : Netfilter) (site : Site) (rules : List Rule) : Netfilter :=
  { k with rules := Function.update k.rules site rules }

end Netfilter

/-- Why a command fails beyond what it is asked to do: it exits with a message, or it cannot be run. -/
inductive Refusal where
  | exit (stderr : String)
  | broken (e : Error)

structure Output where
  ok : Bool
  stdout : List Char := []
  stderr : String := ""

/-- What the manual of iptables leaves open: which arguments are listed in quotes, the rule that
is made of the arguments of a new one, the first line of a dump, and commands that fail. -/
structure Iptables where
  quoted : String → Bool
  make : Family → List String → Except String Rule
  banner : List Char
  refusal : List String → Option Refusal

namespace Iptables

def print_arg (quoted : String → Bool) (arg : String) : List Char :=
  if quoted arg then '"' :: (arg.toList ++ ['"']) else arg.toList

/-- A rule as both `-S` and a dump list it. -/
def rule_line (quoted : String → Bool) (chain : String) (rule : Rule) : List Char :=
  [' '].intercalate ("-A".toList :: chain.toList :: rule.map (print_arg quoted))

def list_line (chain : Chain) : List Char :=
  match chain.policy with
  | some policy => "-P ".toList ++ chain.name.toList ++ ' ' :: policy.as_str.toList
  | none => "-N ".toList ++ chain.name.toList

def save_line (chain : Chain) : List Char :=
  [' '].intercalate [':' :: chain.name.toList, ((chain.policy.map Policy.as_str).getD "-").toList, "[0:0]".toList]

def chain_lines (quoted : String → Bool) (k : Netfilter) (site : Site) : List (List Char) :=
  (k.rules site).map (rule_line quoted site.chain)

def save_table (quoted : String → Bool) (k : Netfilter) (family : Family) (table : Table) : List (List Char) :=
  ('*' :: table.name.toList) :: table.chains.map save_line ++
    table.chains.flatMap (fun c => chain_lines quoted k ⟨family, table.name, c.name⟩) ++ ["COMMIT".toList]

inductive Command where
  | save (family : Family)
  | list (site : Site)
  | delete (site : Site) (index : String)
  | append (site : Site) (args : List String)

def binary : Family → String
  | .Ipv4 => "iptables"
  | .Ipv6 => "ip6tables"

def bin_save : Family → String
  | .Ipv4 => "iptables-save"
  | .Ipv6 => "ip6tables-save"

def family_of (bin : String) : Option Family :=
  if bin = "iptables" then some .Ipv4 else if bin = "ip6tables" then some .Ipv6 else none

def read_argv : List String → Option Command
  | [bin] => if bin = "iptables-save" then some (.save .Ipv4) else if bin = "ip6tables-save" then some (.save .Ipv6) else none
  | bin :: "-t" :: table :: "-S" :: [chain] => (family_of bin).map fun family => .list ⟨family, table, chain⟩
  | bin :: "-t" :: table :: "-D" :: [chain, index] => (family_of bin).map fun family => .delete ⟨family, table, chain⟩ index
  | bin :: "-t" :: table :: "-A" :: chain :: args => (family_of bin).map fun family => .append ⟨family, table, chain⟩ args
  | _ => none

def no_chain : Output := ⟨false, [], "iptables: No chain/target/match by that name.\n"⟩

/-- What a command prints, and the rules after it. Rules are counted from one. -/
def execute (tool : Iptables) (k : Netfilter) : Command → Output × Netfilter
  | .save family =>
    (⟨true, str.unlines (tool.banner :: (k.tables family).flatMap (save_table tool.quoted k family)), ""⟩, k)
  | .list site =>
    match (k.tables site.family).findSome? fun t =>
      if t.name = site.table then t.chains.find? (·.name == site.chain) else none with
    | some chain => (⟨true, str.unlines (list_line chain :: chain_lines tool.quoted k site), ""⟩, k)
    | none => (no_chain, k)
  | .delete site index =>
    match k.has site, num.from_str_radix 10 ((k.rules site).length + 1) index.toList with
    | true, some (i + 1) => (⟨true, [], ""⟩, k.set site ((k.rules site).eraseIdx i))
    | true, _ => (⟨false, [], "iptables: Index of deletion too big.\n"⟩, k)
    | false, _ => (no_chain, k)
  | .append site args =>
    match k.has site, tool.make site.family args with
    | true, .ok rule => (⟨true, [], ""⟩, k.set site (k.rules site ++ [rule]))
    | true, .error stderr => (⟨false, [], stderr⟩, k)
    | false, _ => (no_chain, k)

def run (tool : Iptables) (argv : List String) : Prog Netfilter Error Output := of_fun fun k =>
  match tool.refusal argv, read_argv argv with
  | some (.broken e), _ => (.error e, k)
  | some (.exit stderr), _ => (.ok ⟨false, [], stderr⟩, k)
  | none, some command => (.ok (tool.execute k command).1, (tool.execute k command).2)
  | none, none => (.ok ⟨false, [], "iptables: bad argument\n"⟩, k)

/-- The arguments of a rule for a spec, after its chain. -/
def match_args (spec : FirewallRuleSpec) : List String :=
  (if spec.protocol = "all" then [] else ["-p", spec.protocol]) ++
    (spec.port.elim [] fun p => ["--dport", toString p.toNat]) ++ (spec.source.elim [] fun s => ["-s", s]) ++
    (spec.destination.elim [] fun d => ["-d", d]) ++
    ["-m", "comment", "--comment", "iac:" ++ spec.name, "-j", spec.action]

def build_match (spec : FirewallRuleSpec) : List String := spec.chain :: match_args spec

/-- The tokens of the rest of a line, from a token that is read and whether quotes are open. -/
def tokenize (in_quote : Bool) (buf : List Char) : List Char → List (List Char)
  | [] => if buf.isEmpty then [] else [buf]
  | c :: rest =>
    if c = '"' then tokenize (!in_quote) buf rest
    else if !in_quote && str.is_whitespace c then
      if buf.isEmpty then tokenize in_quote [] rest else buf :: tokenize in_quote [] rest
    else tokenize in_quote (buf ++ [c]) rest

def tokenize_iptables (line : List Char) : List String := (tokenize false [] line).map String.ofList

/-- Without the length of the address that the kernel adds to a single one. -/
def strip_default_prefix (s : String) : String :=
  if "/32".toList <:+ s.toList ∧ ':' ∉ s.toList.take (s.length - 3) then String.ofList (s.toList.take (s.length - 3))
  else if "/128".toList <:+ s.toList ∧ ':' ∈ s.toList.take (s.length - 4) then String.ofList (s.toList.take (s.length - 4))
  else s

/-- `str::parse` of a port. -/
def parse_port (text : String) : Option UInt16 := (num.from_str_radix 10 65536 text.toList).map UInt16.ofNat

/-- What an option and its value say of a rule. -/
def read_option (rule : ObservedRule) (flag value : String) : Option ObservedRule :=
  if flag = "-A" then some { rule with chain := value }
  else if flag = "-p" then some { rule with protocol := value }
  else if flag = "--dport" then some { rule with port := parse_port value }
  else if flag = "-s" then some { rule with source := some ( strip_default_prefix value) }
  else if flag = "-d" then some { rule with destination := some ( strip_default_prefix value) }
  else if flag = "-j" then some { rule with action := value }
  else none

def read_options (rule : ObservedRule) : List String → ObservedRule
  | flag :: value :: rest =>
    match read_option rule flag value with
    | some rule => read_options rule rest
    | none => read_options rule (value :: rest)
  | _ => rule

/-- The table is always `filter`. -/
def parse_save_line (line : List Char) (expected_name : String) (family : Family) : ObservedRule :=
  read_options { name := expected_name, table := "filter", chain := "", protocol := "all", port := none, source := none
                 destination := none, action := "", family } (tokenize_iptables line)

def needle (name : String) : List Char := "--comment \"iac:".toList ++ name.toList ++ ['"']

def needle2 (name : String) : List Char := "--comment iac:".toList ++ name.toList

/-- Whether the line has the comment of the name, as far as the backend looks. -/
def carries (name : String) (line : List Char) : Bool :=
  decide (needle name <:+: line) || decide (needle2 name <:+: line)

def query (tool : Iptables) (name : String) (family : Family) (k : Netfilter) : Except Error (Option ObservedRule) := do
  let out ← (perform (tool.run [bin_save family]) k).1
  if !out.ok then throw (provider_error (bin_save family ++ " failed: " ++ String.ofList (str.trim out.stderr.toList)))
  else return ((str.lines out.stdout).find? (carries name)).map fun line => parse_save_line line name family

/-- The number of the first rule of a listing that has the comment, counted on from those before it. -/
def rule_index (name : String) (before : Nat) : List (List Char) → Option Nat
  | [] => none
  | line :: rest =>
    if "-A ".toList.isPrefixOf line then
      if carries name line then some (before + 1) else rule_index name (before + 1) rest
    else rule_index name before rest

def delete_rule (tool : Iptables) (table chain : String) (family : Family) (index : Nat) : Prog Netfilter Error Unit := do
  let out ← tool.run [binary family, "-t", table, "-D", chain, toString index]
  if !out.ok then
    throw (provider_error (binary family ++ " -D " ++ chain ++ " failed: " ++ String.ofList (str.trim out.stderr.toList)))

def ensure_absent (tool : Iptables) (name table chain : String) (family : Family) : Prog Netfilter Error Unit := do
  let out ← tool.run [binary family, "-t", table, "-S", chain]
  if !out.ok then return
  else
    match rule_index name 0 (str.lines out.stdout) with
    | none => return
    | some index => delete_rule tool table chain family index

def append_rule (tool : Iptables) (spec : FirewallRuleSpec) : Prog Netfilter Error Unit := do
  let out ← tool.run (binary spec.family :: "-t" :: spec.table :: "-A" :: build_match spec)
  if !out.ok then
    throw (provider_error (binary spec.family ++ " -A failed: " ++ String.ofList (str.trim out.stderr.toList)))

/-- Whether the rule that was there could be deleted is not looked at. -/
def ensure_present (tool : Iptables) (spec : FirewallRuleSpec) : Prog Netfilter Error Unit := do
  let _ ← attempt (ensure_absent tool spec.name spec.table spec.chain spec.family)
  append_rule tool spec

def backend (tool : Iptables) : FirewallBackend Netfilter where
  query := query tool
  ensure_present := ensure_present tool
  ensure_absent := ensure_absent tool

section Tokens

variable {line word rest buf : List Char} {quoted : String → Bool} {args : List String}

/-- An argument without quotes and whitespace. -/
def Bare (arg : String) : Prop := arg.toList ≠ [] ∧ ∀ c ∈ arg.toList, c ≠ '"' ∧ str.is_whitespace c = false

theorem tokenize_append {in_quote : Bool} (h : ∀ c ∈ word, c ≠ '"' ∧ str.is_whitespace c = false) :
    tokenize in_quote buf (word ++ rest) = tokenize in_quote (buf ++ word) rest := by
  induction word generalizing buf with
  | nil => simp
  | cons c word ih =>
    obtain ⟨⟨hquote, hblank⟩, hword⟩ := List.forall_mem_cons.mp h
    rw [List.cons_append, tokenize, if_neg hquote, hblank, Bool.and_false, if_neg Bool.false_ne_true, ih hword,
      List.append_assoc, List.singleton_append]

/-- An argument as it may be listed. -/
def Prints (arg : String) (text : List Char) : Prop := text = arg.toList ∨ text = '"' :: (arg.toList ++ ['"'])

theorem prints_print_arg (quoted : String → Bool) (arg : String) : Prints arg (print_arg quoted arg) := by
  rw [print_arg]
  split
  · exact .inr rfl
  · exact .inl rfl

theorem tokenize_print {arg : String} {text : List Char} (h : Bare arg) (hprints : Prints arg text) :
    tokenize false [] (text ++ rest) = tokenize false arg.toList rest := by
  obtain rfl | rfl := hprints
  · rw [tokenize_append h.2, List.nil_append]
  · rw [List.cons_append, tokenize, if_pos rfl, List.append_assoc, Bool.not_false, tokenize_append h.2, List.nil_append,
      List.singleton_append, tokenize, if_pos rfl, Bool.not_true]

/-- Arguments are read back as they are listed, in quotes or not. -/
theorem tokenize_intercalate {texts : List (List Char)} (h : ∀ arg ∈ args, Bare arg)
    (hprints : List.Forall₂ Prints args texts) :
    tokenize false [] ([' '].intercalate texts) = args.map String.toList := by
  induction hprints with
  | nil => rfl
  | @cons arg text args texts harg_prints hprints ih =>
    obtain ⟨harg, hrest⟩ := List.forall_mem_cons.mp h
    have hne : arg.toList.isEmpty = false := List.isEmpty_eq_false_iff.mpr harg.1
    have hstart := @tokenize_print [] arg text harg harg_prints
    cases hprints with
    | nil =>
      rw [List.append_nil] at hstart
      simp [hstart, tokenize, hne]
    | cons hnext hprints =>
      rw [List.intercalate_cons_cons, List.append_assoc, tokenize_print harg harg_prints, List.singleton_append, tokenize,
        if_neg (by decide), if_pos (by decide), hne, if_neg Bool.false_ne_true, ih hrest]
      rfl

theorem tokenize_rule_line {chain : String} {rule : Rule} (h : ∀ arg ∈ "-A" :: chain :: rule, Bare arg) :
    tokenize_iptables (rule_line quoted chain rule) = "-A" :: chain :: rule := by
  have hprints : List.Forall₂ Prints ("-A" :: chain :: rule) ("-A".toList :: chain.toList :: rule.map (print_arg quoted)) := by
    refine .cons (.inl rfl) (.cons (.inl rfl) ?_)
    rw [List.forall₂_map_right_iff, List.forall₂_same]
    exact fun arg _ => prints_print_arg quoted arg
  rw [tokenize_iptables, rule_line, tokenize_intercalate h hprints, List.map_map]
  exact (List.map_congr_left fun arg _ => String.ofList_toList).trans (List.map_id' _)

end Tokens

section Listed

variable {tool : Iptables} {canonical : Family → String → Option String} {spec : FirewallRuleSpec}

/-- The options of the target that are listed after it. -/
def target_options (family : Family) (action : String) : List String :=
  if action = "REJECT" then
    ["--reject-with", match family with
      | .Ipv4 => "icmp-port-unreachable"
      | .Ipv6 => "icmp6-port-unreachable"]
  else []

/-- The rule of a spec: the arguments in the order of a listing, with the addresses as the kernel writes them.
That every address is meant is not written. -/
def listed (canonical : Family → String → Option String) (spec : FirewallRuleSpec) : Rule :=
  ((spec.source.bind (canonical spec.family)).elim [] fun s => ["-s", s]) ++
    ((spec.destination.bind (canonical spec.family)).elim [] fun d => ["-d", d]) ++
    (if spec.protocol = "all" then [] else ["-p", spec.protocol]) ++
    (spec.port.elim [] fun p => ["-m", spec.protocol, "--dport", toString p.toNat]) ++
    ["-m", "comment", "--comment", "iac:" ++ spec.name, "-j", spec.action] ++ target_options spec.family spec.action

def is_address_char (c : Char) : Bool := is_hexdigit c || c == '.' || c == ':' || c == '/'

/-- What the manual says of the rules that the backend adds. -/
structure Documented (tool : Iptables) (canonical : Family → String → Option String) : Prop where
  make : ∀ spec rule, spec.validate = .ok () → tool.make spec.family (match_args spec) = .ok rule → rule = listed canonical spec
  address : ∀ family addr text, validate_addr addr family = .ok () → canonical family addr = some text →
    text.toList ≠ [] ∧ ∀ c ∈ text.toList, is_address_char c = true
  flag : tool.quoted "--comment" = false
  banner : str.PlainLine tool.banner ∧ ∀ name, carries name tool.banner = false

/-- The address as the backend reads it from a listing. -/
def read_address (canonical : Family → String → Option String) (family : Family) (addr : String) : Option String :=
  (canonical family addr).map strip_default_prefix

/-- The rule of a spec as the backend finds it. -/
def found_rule (canonical : Family → String → Option String) (spec : FirewallRuleSpec) : ObservedRule :=
  { spec.rule with
    table := "filter"
    source := spec.source.bind (read_address canonical spec.family)
    destination := spec.destination.bind (read_address canonical spec.family) }

theorem bare_of_graphic {arg : String} (hne : arg.toList ≠ []) (h : ∀ c ∈ arg.toList, 34 < c.toNat ∧ c.toNat < 127) :
    Bare arg := by
  refine ⟨hne, fun c hc => ⟨?_, str.not_whitespace_of_graphic (by have := h c hc; omega) (h c hc).2⟩⟩
  rintro rfl
  exact absurd (h _ hc).1 (by decide)

theorem is_address_char_graphic {c : Char} (h : is_address_char c = true) : 34 < c.toNat ∧ c.toNat < 127 ∧ c ≠ 'i' := by
  have hcode : c.val.toNat = c.toNat := rfl
  simp only [is_address_char, is_hexdigit, Char.isDigit, Bool.or_eq_true, Bool.and_eq_true, decide_eq_true_eq, Char.le_def,
    UInt32.le_iff_toNat_le, ge_iff_le, hcode, beq_iff_eq] at h
  have hi {d : Char} (hd : d.toNat ≠ 105) : d ≠ 'i' := by
    rintro rfl
    exact hd rfl
  obtain (((((⟨hlow, hhigh⟩ | ⟨hlow, hhigh⟩) | ⟨hlow, hhigh⟩) | rfl) | rfl) | rfl) := h
  · simp at hlow hhigh
    exact ⟨by omega, by omega, hi (by omega)⟩
  · simp at hlow hhigh
    exact ⟨by omega, by omega, hi (by omega)⟩
  · simp at hlow hhigh
    exact ⟨by omega, by omega, hi (by omega)⟩
  · decide
  · decide
  · decide

/-- An argument of a listed rule that is not its comment. -/
structure Other (arg : String) : Prop where
  bare : Bare arg
  untagged : ¬ "iac:".toList <+: arg.toList

theorem other_of_decide {args : List String} (h : (args.all fun arg => !arg.toList.isEmpty &&
    arg.toList.all (fun c => decide (34 < c.toNat ∧ c.toNat < 127)) && !"iac:".toList.isPrefixOf arg.toList) = true) :
    ∀ arg ∈ args, Other arg := by
  intro arg harg
  have harg := List.all_eq_true.mp h arg harg
  simp only [Bool.and_eq_true, Bool.not_eq_true'] at harg
  obtain ⟨⟨hne, hgraphic⟩, htag⟩ := harg
  refine ⟨bare_of_graphic (List.isEmpty_eq_false_iff.mp hne) (str.forall_mem_of_all hgraphic), fun hprefix => ?_⟩
  rw [List.isPrefixOf_iff_prefix.mpr hprefix] at htag
  cases htag

theorem other_of_address (h : Documented tool canonical) {family : Family} {addr text : String}
    (haddr : validate_addr addr family = .ok ()) (htext : canonical family addr = some text) : Other text := by
  obtain ⟨hne, hchars⟩ := h.address family addr text haddr htext
  refine ⟨bare_of_graphic hne fun c hc => ?_, fun hprefix => ?_⟩
  · obtain ⟨hlow, hhigh, -⟩ := is_address_char_graphic (hchars c hc)
    exact ⟨hlow, hhigh⟩
  · exact (is_address_char_graphic (hchars 'i' (List.IsPrefix.subset hprefix (by decide)))).2.2 rfl

theorem other_of_port (p : UInt16) : Other (toString p.toNat) := by
  have htext : (toString p.toNat).toList = Nat.toDigits 10 p.toNat := by simp
  obtain ⟨-, hne⟩ := num.digits_of_nat p.toNat
  have hdigit : ∀ c ∈ (toString p.toNat).toList, is_address_char c = true := by
    intro c hc
    simp [is_address_char, is_hexdigit, num.digit_of_mem_toString hc]
  refine ⟨bare_of_graphic (htext ▸ hne) fun c hc => ?_, fun hprefix => ?_⟩
  · obtain ⟨hlow, hhigh, -⟩ := is_address_char_graphic (hdigit c hc)
    exact ⟨hlow, hhigh⟩
  · exact (is_address_char_graphic (hdigit 'i' (List.IsPrefix.subset hprefix (by decide)))).2.2 rfl

theorem mem_listed (h : Documented tool canonical) (hspec : spec.Valid) :
    ∀ arg ∈ "-A" :: spec.chain :: listed canonical spec, arg = "iac:" ++ spec.name ∨ Other arg := by
  have hflags : ∀ arg ∈ ["-A", "-s", "-d", "-p", "-m", "--dport", "comment", "--comment", "-j", "--reject-with",
      "icmp-port-unreachable", "icmp6-port-unreachable"], Other arg := other_of_decide (by decide)
  have hchain := @other_of_decide ["INPUT", "OUTPUT", "FORWARD", "PREROUTING", "POSTROUTING"] (by decide) _ hspec.chain
  have hprotocol := @other_of_decide ["tcp", "udp", "icmp", "all"] (by decide) _ hspec.protocol
  have haction := @other_of_decide ["ACCEPT", "DROP", "REJECT"] (by decide) _ hspec.action
  have hflag {arg : String} (harg : arg ∈ ["-A", "-s", "-d", "-p", "-m", "--dport", "comment", "--comment", "-j",
      "--reject-with", "icmp-port-unreachable", "icmp6-port-unreachable"]) : arg = "iac:" ++ spec.name ∨ Other arg :=
    .inr (hflags arg harg)
  intro arg harg
  simp only [listed, List.mem_cons, List.mem_append, List.not_mem_nil, or_false] at harg
  obtain rfl | rfl | (((((harg | harg) | harg) | harg) | harg) | harg) := harg
  · exact hflag (by decide)
  · exact .inr hchain
  · cases hsource : spec.source.bind (canonical spec.family) with
    | none => simp [hsource] at harg
    | some text =>
      rw [hsource] at harg
      obtain ⟨addr, haddr, htext⟩ := Option.bind_eq_some_iff.mp hsource
      obtain rfl | rfl : arg = "-s" ∨ arg = text := by simpa using harg
      · exact hflag (by decide)
      · exact .inr (other_of_address h (hspec.source addr haddr) htext)
  · cases hdestination : spec.destination.bind (canonical spec.family) with
    | none => simp [hdestination] at harg
    | some text =>
      rw [hdestination] at harg
      obtain ⟨addr, haddr, htext⟩ := Option.bind_eq_some_iff.mp hdestination
      obtain rfl | rfl : arg = "-d" ∨ arg = text := by simpa using harg
      · exact hflag (by decide)
      · exact .inr (other_of_address h (hspec.destination addr haddr) htext)
  · split at harg
    · cases harg
    · obtain rfl | rfl : arg = "-p" ∨ arg = spec.protocol := by simpa using harg
      · exact hflag (by decide)
      · exact .inr hprotocol
  · cases hport : spec.port with
    | none => simp [hport] at harg
    | some p =>
      rw [hport] at harg
      obtain rfl | rfl | rfl | rfl : arg = "-m" ∨ arg = spec.protocol ∨ arg = "--dport" ∨ arg = toString p.toNat := by
        simpa using harg
      · exact hflag (by decide)
      · exact .inr hprotocol
      · exact hflag (by decide)
      · exact .inr (other_of_port p)
  · obtain rfl | rfl | rfl | rfl | rfl | rfl := harg
    · exact hflag (by decide)
    · exact hflag (by decide)
    · exact hflag (by decide)
    · exact .inl rfl
    · exact hflag (by decide)
    · exact .inr haction
  · unfold target_options at harg
    split at harg
    · obtain rfl | rfl := List.mem_pair.mp harg
      · exact hflag (by decide)
      · cases spec.family
        · exact hflag (by decide)
        · exact hflag (by decide)
    · cases harg

theorem bare_tag (hspec : spec.Valid) : Bare ("iac:" ++ spec.name) := by
  refine bare_of_graphic (by simp) fun c hc => ?_
  rw [String.toList_append, List.mem_append] at hc
  obtain hc | hc := hc
  · have hmark : ∀ c ∈ "iac:".toList, 34 < c.toNat ∧ c.toNat < 127 := str.forall_mem_of_all (by decide)
    exact hmark c hc
  · exact is_name_char_graphic (hspec.name c hc)

theorem bare_listed (h : Documented tool canonical) (hspec : spec.Valid) :
    ∀ arg ∈ "-A" :: spec.chain :: listed canonical spec, Bare arg := by
  intro arg harg
  obtain rfl | hother := mem_listed h hspec arg harg
  · exact bare_tag hspec
  · exact hother.bare

end Listed

section Parsing

variable {tool : Iptables} {canonical : Family → String → Option String} {spec : FirewallRuleSpec} {rule rule' : ObservedRule}

theorem read_options_flag {flag value : String} (h : read_option rule flag value = some rule') (rest : List String) :
    read_options rule (flag :: value :: rest) = read_options rule' rest := by
  rw [read_options, h]

theorem read_options_skip {word : String} (h : word ∉ ["-A", "-p", "--dport", "-s", "-d", "-j"]) (rest : List String) :
    read_options rule (word :: rest) = read_options rule rest := by
  cases rest with
  | nil => rfl
  | cons value rest =>
    simp only [List.mem_cons, List.not_mem_nil, or_false, not_or] at h
    obtain ⟨hchain, hprotocol, hport, hsource, hdestination, haction⟩ := h
    rw [read_options, read_option, if_neg hchain, if_neg hprotocol, if_neg hport, if_neg hsource, if_neg hdestination,
      if_neg haction]

theorem read_options_skip_all {words : List String} (h : ∀ word ∈ words, word ∉ ["-A", "-p", "--dport", "-s", "-d", "-j"])
    (rest : List String) : read_options rule (words ++ rest) = read_options rule rest := by
  induction words with
  | nil => rfl
  | cons word words ih =>
    obtain ⟨hword, hwords⟩ := List.forall_mem_cons.mp h
    rw [List.cons_append, read_options_skip hword, ih hwords]

theorem parse_port_toString (p : UInt16) : parse_port (toString p.toNat) = some p := by
  rw [parse_port, num.from_str_radix_toString p.toNat_lt]
  simp

theorem read_source (rest : List String) :
    read_options rule (((spec.source.bind (canonical spec.family)).elim [] fun s => ["-s", s]) ++ rest) =
      read_options { rule with source := (spec.source.bind (read_address canonical spec.family)).or rule.source } rest := by
  have hread : spec.source.bind (read_address canonical spec.family) =
      (spec.source.bind (canonical spec.family)).map strip_default_prefix := by
    cases spec.source <;> rfl
  rw [hread]
  cases spec.source.bind (canonical spec.family) with
  | none => rfl
  | some s => exact read_options_flag rfl rest

theorem read_destination (rest : List String) :
    read_options rule (((spec.destination.bind (canonical spec.family)).elim [] fun d => ["-d", d]) ++ rest) =
      read_options
        { rule with destination := (spec.destination.bind (read_address canonical spec.family)).or rule.destination } rest := by
  have hread : spec.destination.bind (read_address canonical spec.family) =
      (spec.destination.bind (canonical spec.family)).map strip_default_prefix := by
    cases spec.destination <;> rfl
  rw [hread]
  cases spec.destination.bind (canonical spec.family) with
  | none => rfl
  | some d => exact read_options_flag rfl rest

theorem read_protocol (hrule : rule.protocol = "all") (rest : List String) :
    read_options rule ((if spec.protocol = "all" then [] else ["-p", spec.protocol]) ++ rest) =
      read_options { rule with protocol := spec.protocol } rest := by
  split
  · next hall => rw [hall, ← hrule, List.nil_append]
  · exact read_options_flag rfl rest

theorem read_port (hspec : spec.Valid) (rest : List String) :
    read_options rule ((spec.port.elim [] fun p => ["-m", spec.protocol, "--dport", toString p.toNat]) ++ rest) =
      read_options { rule with port := spec.port.or rule.port } rest := by
  have hprotocol : spec.protocol ∉ ["-A", "-p", "--dport", "-s", "-d", "-j"] := by
    have hmem := hspec.protocol
    generalize spec.protocol = protocol at hmem
    revert protocol
    decide
  cases spec.port with
  | none => rfl
  | some p =>
    refine (@read_options_skip_all rule ["-m", spec.protocol] ?_ ("--dport" :: toString p.toNat :: rest)).trans ?_
    · simpa using hprotocol
    · have hread : read_option rule "--dport" (toString p.toNat) = some { rule with port := some p } := by
        rw [← parse_port_toString p]
        rfl
      exact read_options_flag hread rest

/-- The backend reads the rule that it added from its line. -/
theorem parse_rule_line (h : Documented tool canonical) (hspec : spec.Valid) :
    parse_save_line (rule_line tool.quoted spec.chain (listed canonical spec)) spec.name spec.family =
      found_rule canonical spec := by
  have htag : "iac:" ++ spec.name ∉ ["-A", "-p", "--dport", "-s", "-d", "-j"] := by
    intro hmem
    have hhead : ("iac:" ++ spec.name).toList.head? = some 'i' := by simp
    simp only [List.mem_cons, List.not_mem_nil, or_false] at hmem
    obtain hmem | hmem | hmem | hmem | hmem | hmem := hmem <;> rw [hmem] at hhead <;> exact absurd hhead (by decide)
  have htarget : ∀ word ∈ target_options spec.family spec.action, word ∉ ["-A", "-p", "--dport", "-s", "-d", "-j"] := by
    unfold target_options
    split
    · cases spec.family <;> decide
    · simp
  rw [parse_save_line, tokenize_rule_line (bare_listed h hspec), read_options_flag rfl]
  simp only [listed, List.append_assoc]
  rw [read_source, read_destination, read_protocol rfl, read_port hspec]
  refine (@read_options_skip_all _ ["-m", "comment", "--comment", "iac:" ++ spec.name] ?_
    ("-j" :: spec.action :: target_options spec.family spec.action)).trans ?_
  · simpa using htag
  · rw [read_options_flag rfl]
    have hend := @read_options_skip_all { found_rule canonical spec with action := spec.action } _ htarget []
    rw [List.append_nil] at hend
    simpa [found_rule, FirewallRuleSpec.rule, read_options] using hend

end Parsing

section Tags

variable {tool : Iptables} {canonical : Family → String → Option String} {spec : FirewallRuleSpec} {name : String}

def is_space (c : Char) : Bool := c == ' '

/-- The comment of a name as the backend looks for it, in quotes or not. -/
def marks (name : String) : List (List Char) := ['"' :: (("iac:" ++ name).toList ++ ['"']), ("iac:" ++ name).toList]

theorem carries_iff {line : List Char} : carries name line = true ↔
    ∃ mark ∈ marks name, "--comment".toList ++ ' ' :: mark <:+: line := by
  have hsplit {start flag tag rest : List Char} (h : start = flag ++ ' ' :: tag) :
      start ++ rest = flag ++ ' ' :: (tag ++ rest) := by
    rw [h, List.append_assoc, List.cons_append]
  have hneedle : needle name = "--comment".toList ++ ' ' :: '"' :: (("iac:" ++ name).toList ++ ['"']) := by
    rw [String.toList_append, List.append_assoc]
    exact (List.append_assoc _ _ _).trans (@hsplit _ _ ('"' :: "iac:".toList) _ (by decide))
  have hneedle2 : needle2 name = "--comment".toList ++ ' ' :: ("iac:" ++ name).toList := by
    rw [String.toList_append]
    exact hsplit (by decide)
  rw [carries, hneedle, hneedle2, Bool.or_eq_true, decide_eq_true_eq, decide_eq_true_eq]
  simp only [marks, List.mem_cons, List.not_mem_nil, or_false, exists_eq_or_imp, exists_eq_left]

theorem solid_mark (hname : Bare ("iac:" ++ name)) {mark : List Char} (h : mark ∈ marks name) : Solid is_space mark := by
  have hsolid : Solid is_space ("iac:" ++ name).toList := by
    intro c hc
    have hblank := (hname.2 c hc).2
    simp only [is_space, beq_eq_false_iff_ne, ne_eq]
    rintro rfl
    exact absurd hblank (by decide)
  intro c hc
  simp only [marks, List.mem_cons, List.not_mem_nil, or_false] at h
  obtain rfl | rfl := h
  · obtain rfl | hc := List.mem_cons.mp hc
    · rfl
    · obtain hc | hc := List.mem_append.mp hc
      · exact hsolid c hc
      · rw [List.mem_singleton.mp hc]
        rfl
  · exact hsolid c hc

/-- Where a line of words has the comment, a word starts with it. -/
theorem marked_word {words : List (List Char)} (hwords : ∀ word ∈ words, Solid is_space word)
    (hname : Bare ("iac:" ++ name)) (h : carries name ([' '].intercalate words) = true) :
    ∃ word ∈ words, ∃ mark ∈ marks name, mark <+: word := by
  obtain ⟨mark, hmark, hinfix⟩ := carries_iff.mp h
  obtain ⟨word, hword, hprefix⟩ := prefix_of_infix_intercalate (p := is_space) rfl hwords (solid_mark hname hmark)
    ((List.suffix_append _ _).isInfix.trans hinfix)
  exact ⟨word, hword, mark, hmark, hprefix⟩

theorem solid_of_bare {arg : String} (h : Bare arg) : Solid is_space arg.toList := by
  intro c hc
  have hblank := (h.2 c hc).2
  simp only [is_space, beq_eq_false_iff_ne, ne_eq]
  rintro rfl
  exact absurd hblank (by decide)

theorem solid_print {quoted : String → Bool} {arg : String} (h : Bare arg) : Solid is_space (print_arg quoted arg) := by
  rw [print_arg]
  split
  · intro c hc
    simp only [List.mem_cons, List.mem_append, List.not_mem_nil, or_false] at hc
    obtain rfl | hc | rfl := hc
    · rfl
    · exact solid_of_bare h c hc
    · rfl
  · exact solid_of_bare h

theorem not_quote_of_bare {arg : String} (h : Bare arg) : Solid (· == '"') arg.toList := fun c hc => by
  simpa using (h.2 c hc).1

/-- A listed argument starts as a comment in quotes when it is listed in quotes, and as one
without quotes otherwise. -/
theorem mark_prefix_iff {quoted : String → Bool} {arg : String} (harg : Bare arg) (hname : Bare ("iac:" ++ name)) :
    (∃ mark ∈ marks name, mark <+: print_arg quoted arg) ↔
      if quoted arg then "iac:" ++ name = arg else ("iac:" ++ name).toList <+: arg.toList := by
  obtain ⟨first, rest, hfirst⟩ := List.exists_cons_of_ne_nil harg.1
  obtain ⟨start, more, hstart⟩ := List.exists_cons_of_ne_nil hname.1
  have hquote : '"' ≠ first := ((harg.2 first (hfirst ▸ List.mem_cons_self)).1).symm
  have hquote' : start ≠ '"' := (hname.2 start (hstart ▸ List.mem_cons_self)).1
  simp only [marks, List.mem_cons, List.not_mem_nil, or_false, exists_eq_or_imp, exists_eq_left]
  rw [print_arg]
  split
  · have hplain : ¬ ("iac:" ++ name).toList <+: '"' :: (arg.toList ++ ['"']) := by
      rw [hstart]
      exact fun hprefix => hquote' (List.cons_prefix_cons.mp hprefix).1
    rw [or_iff_left hplain, List.prefix_cons_inj]
    constructor
    · intro hprefix
      have hinside := prefix_of_solid (not_quote_of_bare hname) (by simp) ((List.prefix_append _ ['"']).trans hprefix)
      obtain ⟨tail, htail⟩ := hinside
      rw [← htail, List.append_assoc, List.prefix_append_right_inj] at hprefix
      cases tail with
      | nil => exact String.toList_inj.mp (by simpa using htail)
      | cons c tail =>
        have hc := (List.cons_prefix_cons.mp hprefix).1
        have hmem : '"' ∈ arg.toList := by
          rw [← htail, hc]
          simp
        exact absurd rfl (harg.2 '"' hmem).1
    · rintro rfl
      exact List.prefix_refl _
  · have hplain : ¬ '"' :: (("iac:" ++ name).toList ++ ['"']) <+: arg.toList := by
      rw [hfirst]
      exact fun hprefix => hquote (List.cons_prefix_cons.mp hprefix).1
    exact or_iff_right hplain

/-- The names whose rule the rule of the spec is taken for: its own and, where its comment
is listed without quotes, every start of it. -/
theorem carries_listed_iff (h : Documented tool canonical) (hspec : spec.Valid) (hname : Bare ("iac:" ++ name)) :
    carries name (rule_line tool.quoted spec.chain (listed canonical spec)) = true ↔
      if tool.quoted ("iac:" ++ spec.name) then name = spec.name else name.toList <+: spec.name.toList := by
  have hbare := bare_listed h hspec
  have hmark : (∃ mark ∈ marks name, mark <+: print_arg tool.quoted ("iac:" ++ spec.name)) ↔
      if tool.quoted ("iac:" ++ spec.name) then name = spec.name else name.toList <+: spec.name.toList := by
    rw [mark_prefix_iff (bare_tag hspec) hname]
    split
    · rw [String.append_right_inj]
    · rw [String.toList_append, String.toList_append, List.prefix_append_right_inj]
  have hother {quoted : String → Bool} {arg : String} (harg : Other arg) :
      ¬ ∃ mark ∈ marks name, mark <+: print_arg quoted arg := by
    rw [mark_prefix_iff harg.bare hname, String.toList_append]
    split
    · rintro rfl
      exact harg.untagged (String.toList_append ▸ List.prefix_append _ _)
    · exact fun hprefix => harg.untagged ((List.prefix_append _ _).trans hprefix)
  rw [← hmark]
  constructor
  · intro hcarries
    have hsolid : ∀ word ∈ "-A".toList :: spec.chain.toList :: (listed canonical spec).map (print_arg tool.quoted),
        Solid is_space word :=
      List.forall_mem_cons.mpr ⟨solid_of_bare (hbare _ (by simp)), List.forall_mem_cons.mpr
        ⟨solid_of_bare (hbare _ (by simp)), List.forall_mem_map.mpr fun arg harg => solid_print (hbare arg (by simp [harg]))⟩⟩
    obtain ⟨word, hword, hmarked⟩ := marked_word hsolid hname hcarries
    simp only [List.mem_cons, List.mem_map] at hword
    obtain rfl | rfl | ⟨arg, harg, rfl⟩ := hword
    · exact absurd hmarked (@hother (fun _ => false) "-A" (@other_of_decide ["-A"] (by decide) _ (by simp)))
    · refine absurd hmarked (@hother (fun _ => false) spec.chain ?_)
      exact @other_of_decide ["INPUT", "OUTPUT", "FORWARD", "PREROUTING", "POSTROUTING"] (by decide) _ hspec.chain
    · obtain rfl | hplain := mem_listed h hspec arg (by simp [harg])
      · exact hmarked
      · exact absurd hmarked (hother hplain)
  · rintro ⟨mark, hmark, hprefix⟩
    obtain ⟨before, after, hlisted⟩ : ∃ before after,
        listed canonical spec = before ++ "--comment" :: ("iac:" ++ spec.name) :: after := by
      rw [listed, List.append_assoc]
      exact ⟨_ ++ ["-m", "comment"], _, (List.append_assoc _ ["-m", "comment"] _).symm⟩
    have hflag : print_arg tool.quoted "--comment" = "--comment".toList := by
      rw [print_arg, h.flag, if_neg Bool.false_ne_true]
    have hpair := infix_intercalate ' ' ("-A".toList :: spec.chain.toList :: before.map (print_arg tool.quoted))
      (after.map (print_arg tool.quoted)) "--comment".toList (print_arg tool.quoted ("iac:" ++ spec.name))
    have hline : rule_line tool.quoted spec.chain (listed canonical spec) = [' '].intercalate
        ("-A".toList :: spec.chain.toList :: before.map (print_arg tool.quoted) ++ "--comment".toList ::
          print_arg tool.quoted ("iac:" ++ spec.name) :: after.map (print_arg tool.quoted)) := by
      rw [rule_line, hlisted, List.map_append, List.map_cons, List.map_cons, hflag]
      rfl
    rw [hline]
    refine carries_iff.mpr ⟨mark, hmark, List.IsInfix.trans ?_ hpair⟩
    obtain ⟨rest, hrest⟩ := hprefix
    exact ⟨[], rest, by simp [← hrest]⟩

end Tags

end Iptables

end iac_providers.firewall
