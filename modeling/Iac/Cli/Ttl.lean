import Iac.Core.Numeral
import Iac.Core.Text
import Iac.Core.Timestamp

namespace iac_controlplane.api

/-- A reason of the server's parser, or one that jiff words. -/
inductive TtlError where
  | text (msg : String)
  | jiff

/-- The `{:?}` form of a printable character. -/
def debug_of_char (c : Char) : List Char :=
  if c = '\'' then "'\\''".toList else if c = '"' then "'\"'".toList else '\'' :: str.debug_char c ++ ['\'']

def scale_secs (last : Char) : Except TtlError UInt64 :=
  if last = 's' then .ok 1
  else if last = 'm' then .ok 60
  else if last = 'h' then .ok 3600
  else if last = 'd' then .ok 86400
  else .error (.text ("unknown unit suffix " ++ String.ofList (debug_of_char last) ++ "; expected s/m/h/d"))

/-- The server's reading of a ttl; `parse` is that of jiff. -/
def parse_ttl_to_until (parse : List Char → Option jiff.Timestamp) (now : jiff.Timestamp) (s : List Char) :
    Except TtlError String :=
  let s := str.trim s
  match parse s with
  | some ts => .ok ts.to_string
  | none =>
    match s.getLast? with
    | none => .error (.text "empty ttl")
    | some last => do
      let scale_secs ← scale_secs last
      let n ← (num.parse_u64 s.dropLast).elim
        (.error (.text ("non-numeric prefix in " ++ str.debug (String.ofList s)))) .ok
      let span ← (jiff.try_seconds (num.saturating_mul n scale_secs).toInt64.toInt).elim (.error .jiff) .ok
      let until_ts ← (now.checked_add span).elim (.error .jiff) .ok
      return until_ts.to_string

end iac_controlplane.api

namespace iac_cli

/-- The seconds of so many units; the products wrap. -/
def unit_secs (n : UInt64) (unit : Char) : Option UInt64 :=
  if unit = 's' then some n
  else if unit = 'm' then some (n * 60)
  else if unit = 'h' then some (n * 60 * 60)
  else if unit = 'd' then some (n * 60 * 60 * 24)
  else if unit = 'w' then some (n * 60 * 60 * 24 * 7)
  else none

/-- The command's reading of a ttl; an error is its outermost text. -/
def parse_ttl_to_until (now : jiff.Timestamp) (ttl : List Char) : Except String String :=
  let trimmed := str.trim ttl
  match trimmed.getLast? with
  | none => .error "empty"
  | some last_char => do
    let n ← (num.parse_u64 trimmed.dropLast).elim (.error "number") .ok
    let secs ← (unit_secs n last_char).elim (.error "suffix must be s|m|h|d|w") .ok
    let secs ← if secs.toNat < 2 ^ 63 then .ok secs.toNat else .error "ttl too large"
    let span ← (jiff.try_seconds secs).elim (.error "span") .ok
    let until_ts ← (now.checked_add span).elim (.error "ttl arithmetic overflow") .ok
    return until_ts.to_string

end iac_cli

namespace iac_cli.ttl

open iac_controlplane

/-- The seconds of the units that the server takes. -/
def server_units (unit : Char) : Option Nat :=
  if unit = 's' then some 1
  else if unit = 'm' then some 60
  else if unit = 'h' then some 3600
  else if unit = 'd' then some 86400
  else none

/-- The command takes weeks besides. -/
def cli_units (unit : Char) : Option Nat := if unit = 'w' then some 604800 else server_units unit

/-- The text is so many units of so many seconds. -/
def Relative (units : Char → Option Nat) (ttl : List Char) (n secs : Nat) : Prop :=
  ∃ digits unit, str.trim ttl = digits ++ [unit] ∧ num.from_str_radix 10 (2 ^ 64) digits = some n ∧ units unit = some secs

/-- The text of the time that is so many seconds after now. -/
def After (now : jiff.Timestamp) (seconds : Nat) (text : String) : Prop :=
  ∃ at_ts : jiff.Timestamp, text = at_ts.to_string ∧ at_ts.nanos = now.nanos + seconds * jiff.nanos_per_second ∧
    now.nanos ≤ at_ts.nanos

/-- What a ttl must come to on both sides. -/
structure Exact (parse : List Char → Option jiff.Timestamp) (now : jiff.Timestamp) (ttl : List Char) : Prop where
  server : ∀ text, api.parse_ttl_to_until parse now ttl = .ok text →
    (∃ ts, parse (str.trim ttl) = some ts ∧ text = ts.to_string) ∨
      ∃ n secs, Relative server_units ttl n secs ∧ After now (n * secs) text
  cli : ∀ text, parse_ttl_to_until now ttl = .ok text →
    ∃ n secs, Relative cli_units ttl n secs ∧ After now (n * secs) text
  agree : ∀ digits unit, ttl = digits ++ [unit] → digits.all Char.isDigit = true → unit ∈ ['s', 'm', 'h', 'd'] →
    (api.parse_ttl_to_until parse now ttl).toOption = (parse_ttl_to_until now ttl).toOption
  server_fits : ∀ n secs : UInt64, Relative server_units ttl n.toNat secs.toNat →
    (num.saturating_mul n secs).toInt64.toInt = n.toNat * secs.toNat
  cli_fits : ∀ digits unit n product secs, str.trim ttl = digits ++ [unit] → num.parse_u64 digits = some n →
    unit_secs n unit = some product → cli_units unit = some secs → product.toNat = n.toNat * secs

theorem server_units_lt {unit : Char} {secs : Nat} (h : server_units unit = some secs) : secs ≤ 86400 := by
  unfold server_units at h
  split_ifs at h
  all_goals
    obtain rfl := Option.some.inj h
    decide

theorem cli_units_lt {unit : Char} {secs : Nat} (h : cli_units unit = some secs) : secs ≤ 604800 := by
  unfold cli_units at h
  split_ifs at h
  · exact Nat.le_of_eq (Option.some.inj h).symm
  · exact Nat.le_trans (server_units_lt h) (by decide)

theorem scale_secs_eq (unit : Char) : (api.scale_secs unit).toOption = (server_units unit).map UInt64.ofNat := by
  unfold api.scale_secs server_units
  split_ifs <;> rfl

theorem unit_secs_eq (n : UInt64) (unit : Char) : unit_secs n unit = (cli_units unit).map (n * UInt64.ofNat ·) := by
  unfold unit_secs cli_units server_units
  by_cases hweek : unit = 'w'
  · subst hweek
    simp only [UInt64.mul_assoc]
    rfl
  · simp only [hweek, ↓reduceIte, UInt64.mul_assoc]
    split_ifs
    · simp
    all_goals rfl

/-- The time so many seconds after now, where jiff has it. -/
def add_seconds (now : jiff.Timestamp) (seconds : Int) : Option jiff.Timestamp :=
  (jiff.try_seconds seconds).bind now.checked_add

theorem after_of_add {now at_ts : jiff.Timestamp} {seconds : Nat} (h : add_seconds now seconds = some at_ts) :
    After now seconds at_ts.to_string := by
  obtain ⟨span, hspan, hadd⟩ := Option.bind_eq_some_iff.mp h
  have hnanos := jiff.Timestamp.checked_add_nanos hadd
  unfold jiff.try_seconds at hspan
  split_ifs at hspan
  obtain rfl := Option.some.inj hspan
  refine ⟨at_ts, rfl, hnanos, ?_⟩
  rw [hnanos, jiff.nanos_per_second]
  omega

theorem shared_unit {unit : Char} (h : unit ∈ ['s', 'm', 'h', 'd']) :
    ∃ secs, server_units unit = some secs ∧ cli_units unit = some secs := by
  simp only [List.mem_cons, List.not_mem_nil, or_false] at h
  obtain rfl | rfl | rfl | rfl := h
  all_goals exact ⟨_, rfl, rfl⟩

theorem trim_ttl {digits : List Char} {unit : Char} (hdigits : digits.all Char.isDigit = true)
    (hunit : unit ∈ ['s', 'm', 'h', 'd']) : str.trim (digits ++ [unit]) = digits ++ [unit] := by
  refine str.trim_eq_self fun c hc => ?_
  obtain hc | hc := List.mem_append.mp hc
  · exact str.not_whitespace_of_digit (List.all_eq_true.mp hdigits c hc)
  · obtain rfl := List.mem_singleton.mp hc
    simp only [List.mem_cons, List.not_mem_nil, or_false] at hunit
    obtain rfl | rfl | rfl | rfl := hunit
    all_goals decide

section Results

variable {ε α β : Type}

theorem toOption_bind (result : Except ε α) (next : α → Except ε β) :
    (result >>= next).toOption = result.toOption.bind fun a => (next a).toOption := by
  cases result <;> rfl

theorem toOption_elim (found : Option α) (e : ε) : (found.elim (Except.error e) .ok).toOption = found := by
  cases found <;> rfl

theorem toOption_map (result : Except ε α) (f : α → β) : (f <$> result).toOption = result.toOption.map f := by
  cases result <;> rfl

theorem toOption_ite (p : Prop) [Decidable p] (a b : Except ε α) :
    (if p then a else b).toOption = if p then a.toOption else b.toOption := by
  split_ifs <;> rfl

end Results

section Readings

variable {parse : List Char → Option jiff.Timestamp} {now : jiff.Timestamp} {ttl digits : List Char} {unit : Char}

theorem server_reading (htrim : str.trim ttl = digits ++ [unit]) (hparse : parse (str.trim ttl) = none) :
    (api.parse_ttl_to_until parse now ttl).toOption = (server_units unit).bind fun secs =>
      (num.parse_u64 digits).bind fun n =>
        (add_seconds now (num.saturating_mul n (UInt64.ofNat secs)).toInt64.toInt).map jiff.Timestamp.to_string := by
  simp only [api.parse_ttl_to_until, hparse]
  rw [htrim, List.getLast?_concat, List.dropLast_concat]
  simp only [toOption_bind, toOption_elim, toOption_map, bind_pure_comp, scale_secs_eq, Option.bind_map, add_seconds,
    Option.map_bind]
  rfl

theorem cli_reading (htrim : str.trim ttl = digits ++ [unit]) :
    (parse_ttl_to_until now ttl).toOption = (num.parse_u64 digits).bind fun n =>
      (cli_units unit).bind fun secs =>
        if (n * UInt64.ofNat secs).toNat < 2 ^ 63 then
          (add_seconds now (n * UInt64.ofNat secs).toNat).map jiff.Timestamp.to_string
        else none := by
  simp only [parse_ttl_to_until]
  rw [htrim, List.getLast?_concat, List.dropLast_concat]
  simp only [toOption_bind, toOption_elim, toOption_map, toOption_ite, bind_pure_comp, unit_secs_eq, Option.bind_map,
    add_seconds, Option.map_bind]
  rfl

/-- jiff reads an instant only from a text with its zone at the end: `Z`, an offset or an annotation. -/
def EndsInZone (parse : List Char → Option jiff.Timestamp) : Prop :=
  ∀ text ts, parse text = some ts → ∃ last, text.getLast? = some last ∧ (last.isDigit = true ∨ last ∈ ['Z', 'z', ']'])

theorem relative_not_absolute (hzone : EndsInZone parse) {secs : Nat} (htrim : str.trim ttl = digits ++ [unit])
    (hunit : cli_units unit = some secs) : parse (str.trim ttl) = none := by
  cases hparse : parse (str.trim ttl) with
  | none => rfl
  | some ts =>
    obtain ⟨last, hlast, hends⟩ := hzone _ _ hparse
    rw [htrim, List.getLast?_concat] at hlast
    obtain rfl := Option.some.inj hlast
    unfold cli_units server_units at hunit
    split_ifs at hunit with hw hs hm hh hd
    all_goals
      subst_vars
      exact absurd hends (by decide)

theorem server_ok {text : String} (hparse : parse (str.trim ttl) = none)
    (h : api.parse_ttl_to_until parse now ttl = .ok text) :
    ∃ digits unit n secs at_ts, str.trim ttl = digits ++ [unit] ∧ num.parse_u64 digits = some n ∧
      server_units unit = some secs ∧ text = at_ts.to_string ∧
      add_seconds now (num.saturating_mul n (UInt64.ofNat secs)).toInt64.toInt = some at_ts := by
  obtain hnil | ⟨digits, unit, htrim⟩ := List.eq_nil_or_concat (str.trim ttl)
  · simp only [api.parse_ttl_to_until, hparse] at h
    rw [hnil] at h
    cases h
  · rw [List.concat_eq_append] at htrim
    have hread := @server_reading parse now ttl digits unit htrim hparse
    rw [h] at hread
    obtain ⟨secs, hunit, hread⟩ := Option.bind_eq_some_iff.mp hread.symm
    obtain ⟨n, hn, hread⟩ := Option.bind_eq_some_iff.mp hread
    obtain ⟨at_ts, hadd, htext⟩ := Option.map_eq_some_iff.mp hread
    exact ⟨digits, unit, n, secs, at_ts, htrim, hn, hunit, htext.symm, hadd⟩

theorem cli_ok {text : String} (h : parse_ttl_to_until now ttl = .ok text) :
    ∃ digits unit n secs at_ts, str.trim ttl = digits ++ [unit] ∧ num.parse_u64 digits = some n ∧
      cli_units unit = some secs ∧ text = at_ts.to_string ∧
      add_seconds now (n * UInt64.ofNat secs).toNat = some at_ts := by
  obtain hnil | ⟨digits, unit, htrim⟩ := List.eq_nil_or_concat (str.trim ttl)
  · simp only [parse_ttl_to_until, hnil] at h
    cases h
  · rw [List.concat_eq_append] at htrim
    have hread := @cli_reading now ttl digits unit htrim
    rw [h] at hread
    obtain ⟨n, hn, hread⟩ := Option.bind_eq_some_iff.mp hread.symm
    obtain ⟨secs, hunit, hread⟩ := Option.bind_eq_some_iff.mp hread
    split_ifs at hread
    obtain ⟨at_ts, hadd, htext⟩ := Option.map_eq_some_iff.mp hread
    exact ⟨digits, unit, n, secs, at_ts, htrim, hn, hunit, htext.symm, hadd⟩

/-- Both readings of a ttl are exact, and agree, exactly when the seconds of the
text fit into 63 bits, or 64 for the weeks that only the command takes. -/
theorem exact_iff (now : jiff.Timestamp) (ttl : List Char) (hzone : EndsInZone parse) :
    Exact parse now ttl ↔
      (∀ n secs, Relative server_units ttl n secs → n * secs < 2 ^ 63) ∧
        ∀ n secs, Relative cli_units ttl n secs → n * secs < 2 ^ 64 := by
  constructor
  · intro h
    constructor
    · rintro n secs ⟨digits, unit, htrim, hn, hunit⟩
      have hnlt := num.from_str_radix_lt hn
      have hsecs := server_units_lt hunit
      have hfits := h.server_fits (UInt64.ofNat n) (UInt64.ofNat secs)
      rw [UInt64.toNat_ofNat_of_lt' hnlt, UInt64.toNat_ofNat_of_lt' (by simp [UInt64.size]; omega)] at hfits
      have hfits := hfits ⟨digits, unit, htrim, hn, hunit⟩
      have hlt := (num.saturating_mul (UInt64.ofNat n) (UInt64.ofNat secs)).toInt64.toInt_lt
      rw [hfits] at hlt
      exact_mod_cast hlt
    · rintro n secs ⟨digits, unit, htrim, hn, hunit⟩
      have hnlt := num.from_str_radix_lt hn
      have hread : num.parse_u64 digits = some (UInt64.ofNat n) := by rw [num.parse_u64, hn, Option.map_some]
      have hproduct : unit_secs (UInt64.ofNat n) unit = some (UInt64.ofNat n * UInt64.ofNat secs) := by
        rw [unit_secs_eq, hunit, Option.map_some]
      have hfits := h.cli_fits digits unit _ _ secs htrim hread hproduct hunit
      rw [UInt64.toNat_ofNat_of_lt' hnlt] at hfits
      rw [← hfits]
      exact UInt64.toNat_lt _
  · rintro ⟨hserver, hcli⟩
    have hserver_fits (n secs : UInt64) (hrel : Relative server_units ttl n.toNat secs.toNat) :=
      num.saturating_mul_toInt64 (hserver _ _ hrel)
    have hcli_fits {digits : List Char} {unit : Char} {n : UInt64} {secs : Nat} (htrim : str.trim ttl = digits ++ [unit])
        (hn : num.parse_u64 digits = some n) (hunit : cli_units unit = some secs) :
        (n * UInt64.ofNat secs).toNat = n.toNat * secs := by
      have hsecs := cli_units_lt hunit
      have hlt := hcli n.toNat secs ⟨digits, unit, htrim, num.parse_u64_toNat hn, hunit⟩
      rw [UInt64.toNat_mul, UInt64.toNat_ofNat_of_lt' (by simp [UInt64.size]; omega), Nat.mod_eq_of_lt hlt]
    have hseconds {unit : Char} {secs : Nat} (hunit : server_units unit = some secs) :
        (UInt64.ofNat secs).toNat = secs := by
      have hsecs := server_units_lt hunit
      exact UInt64.toNat_ofNat_of_lt' (by simp [UInt64.size]; omega)
    refine ⟨fun text htext => ?_, fun text htext => ?_, fun digits unit httl hdigits hunit => ?_, hserver_fits, ?_⟩
    · cases hparse : parse (str.trim ttl) with
      | some ts =>
        simp only [api.parse_ttl_to_until, hparse] at htext
        exact .inl ⟨ts, rfl, (Except.ok.inj htext).symm⟩
      | none =>
        obtain ⟨digits, unit, n, secs, at_ts, htrim, hn, hunit, rfl, hadd⟩ := server_ok hparse htext
        have hrel : Relative server_units ttl n.toNat secs := ⟨digits, unit, htrim, num.parse_u64_toNat hn, hunit⟩
        have hfits := hserver_fits n (UInt64.ofNat secs) (by rw [hseconds hunit]; exact hrel)
        rw [hseconds hunit] at hfits
        rw [hfits] at hadd
        exact .inr ⟨n.toNat, secs, hrel, after_of_add (by exact_mod_cast hadd)⟩
    · obtain ⟨digits, unit, n, secs, at_ts, htrim, hn, hunit, rfl, hadd⟩ := cli_ok htext
      rw [hcli_fits htrim hn hunit] at hadd
      exact ⟨n.toNat, secs, ⟨digits, unit, htrim, num.parse_u64_toNat hn, hunit⟩, after_of_add hadd⟩
    · obtain ⟨secs, hserver_unit, hcli_unit⟩ := shared_unit hunit
      have htrim : str.trim ttl = digits ++ [unit] := httl ▸ trim_ttl hdigits hunit
      rw [server_reading htrim (relative_not_absolute hzone htrim hcli_unit), cli_reading htrim, hserver_unit]
      cases hn : num.parse_u64 digits with
      | none => rfl
      | some n =>
        have hrel : Relative server_units ttl n.toNat secs := ⟨digits, unit, htrim, num.parse_u64_toNat hn, hserver_unit⟩
        have hfits := hserver_fits n (UInt64.ofNat secs) (by rw [hseconds hserver_unit]; exact hrel)
        rw [hseconds hserver_unit] at hfits
        simp only [Option.bind_some, hcli_unit, hcli_fits htrim hn hcli_unit, hfits, hserver _ _ hrel, ↓reduceIte]
    · intro digits unit n product secs htrim hn hproduct hunit
      rw [unit_secs_eq, hunit, Option.map_some] at hproduct
      rw [← Option.some.inj hproduct, hcli_fits htrim hn hunit]

end Readings

section Samples

/-- The start of 1970. -/
def epoch : jiff.Timestamp := ⟨62167219200000000000, jiff.unix_epoch_in_range⟩

/-- A reading that knows one instant. -/
def read_epoch (text : List Char) : Option jiff.Timestamp :=
  if text = "1970-01-01T00:00:00Z".toList then some epoch else none

theorem read_epoch_ends : EndsInZone read_epoch := by
  intro text ts h
  unfold read_epoch at h
  split_ifs at h with htext
  exact ⟨'Z', by rw [htext]; decide, .inr (by decide)⟩

/-- A minute is within the bounds. -/
theorem minute_is_exact : Exact read_epoch epoch "60s".toList := by
  have hminute {units : Char → Option Nat} (hunits : units 's' = some 1) {n secs : Nat}
      (h : Relative units "60s".toList n secs) : n * secs = 60 := by
    obtain ⟨digits, unit, htrim, hn, hunit⟩ := h
    have hsplit : "60".toList ++ ['s'] = digits ++ [unit] := by
      rw [← htrim]
      decide
    obtain ⟨rfl, hlast⟩ := List.append_inj' hsplit rfl
    obtain rfl := (List.cons.inj hlast).1
    rw [hunits] at hunit
    obtain rfl := Option.some.inj hunit
    obtain rfl : 60 = n := Option.some.inj hn
    rfl
  refine (exact_iff epoch "60s".toList read_epoch_ends).mpr ⟨fun n secs h => ?_, fun n secs h => ?_⟩
  · rw [hminute rfl h]
    decide
  · rw [hminute rfl h]
    decide

private theorem epoch_second_before :
    (⟨62167219199000000000, by decide⟩ : jiff.Timestamp).to_string = "1969-12-31T23:59:59Z" := by
  set_option maxRecDepth 2000 in decide

private theorem epoch_44_seconds_after :
    (⟨62167219244000000000, by decide⟩ : jiff.Timestamp).to_string = "1970-01-01T00:00:44Z" := by
  set_option maxRecDepth 2000 in decide

/-- The fewest minutes that 64 bits of seconds do not hold, at the start of 1970: the
server says a second ago, the command 44 seconds from now. -/
theorem minutes_wrap :
    api.parse_ttl_to_until read_epoch epoch "307445734561825861m".toList = .ok "1969-12-31T23:59:59Z" ∧
      parse_ttl_to_until epoch "307445734561825861m".toList = .ok "1970-01-01T00:00:44Z" ∧
      ¬ Exact read_epoch epoch "307445734561825861m".toList := by
  have hserver : api.parse_ttl_to_until read_epoch epoch "307445734561825861m".toList = .ok "1969-12-31T23:59:59Z" := by
    rw [← epoch_second_before]
    rfl
  have hcli : parse_ttl_to_until epoch "307445734561825861m".toList = .ok "1970-01-01T00:00:44Z" := by
    rw [← epoch_44_seconds_after]
    rfl
  refine ⟨hserver, hcli, fun h => ?_⟩
  have hagree := h.agree "307445734561825861".toList 'm' (by decide) (by decide) (by decide)
  rw [hserver, hcli] at hagree
  exact absurd (Option.some.inj hagree) (by decide)

end Samples

end iac_cli.ttl
