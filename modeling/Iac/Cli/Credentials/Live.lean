import Iac.Cli.Credentials
import Iac.Controlplane.Store.Users.Revocation

open iac_controlplane iac_controlplane.store sql

namespace iac_cli.credentials

/-- The entry of the file that the process goes by, under its server. -/
def Proc.presents : Proc → Option (String × Entry)
  | .loaded server_url _ entry | .refreshing server_url _ entry => some (normalize server_url, entry)
  | _ => none

/-- The entry that the process has still to put into the file. -/
def Proc.brings : Proc → Option (String × Entry)
  | .logged_in server_url entry | .saving server_url _ entry _ => some (normalize server_url, entry)
  | _ => none

/-- The entry of the file that the process has had exchanged. -/
def Proc.replaces : Proc → Option (String × Entry)
  | .saving server_url _ _ (some old) => some (normalize server_url, old)
  | _ => none

def Proc.Carries (p : Proc) (key : String) (entry : Entry) : Prop :=
  p.presents = some (key, entry) ∨ p.brings = some (key, entry)

variable {ι : Type} {crates : UserCrates} {parse : String → Option jiff.Timestamp} {w v : World ι}

/-- The file or a process has the entry. -/
def World.Holds (w : World ι) (entry : Entry) : Prop :=
  ∃ key, (load w.file).get key = some entry ∨ ∃ i, (w.procs i).Carries key entry

/-- The steps of processes that stay out of each other's way: a process reads the
file when the token it finds there has not been exchanged by a process that has yet
to save, has a token exchanged that no other process goes by, and saves a file whose
other entries are as it read them. Every minted token is a new one, and the text of
the clock is never that of an expiry cut short. -/
def orderly (crates : UserCrates) (parse : String → Option jiff.Timestamp) (w : World ι) : Action ι → Prop
  | .tick now => ∀ entry exp, w.Holds entry → parse entry.expires_at = some exp → ¬ jiff.Truncates now exp
  | .load i => ∀ server_url iac_admin_token, w.procs i = .started (.resolve server_url iac_admin_token) →
    ∀ entry, (load w.file).lookup server_url = some entry →
      ∀ j old, (w.procs j).replaces = some (normalize server_url, old) →
        hash_token crates.toCrates entry.token ≠ hash_token crates.toCrates old.token
  | .ask i token =>
    (∀ entry, w.Holds entry → hash_token crates.toCrates entry.token ≠ hash_token crates.toCrates token) ∧
    ∀ key entry, (w.procs i).presents = some (key, entry) → ∀ j, j ≠ i →
      ∀ other, (w.procs j).presents = some (key, other) →
        hash_token crates.toCrates other.token ≠ hash_token crates.toCrates entry.token
  | .save i => ∀ server_url store entry refreshed, w.procs i = .saving server_url store entry refreshed →
    ∀ key, key ≠ normalize server_url → (load w.file).get key = store.get key
  | _ => True

/-- The server lets the bearer of the entry's token in until it expires. -/
def Valid (crates : UserCrates) (now : jiff.Timestamp) (db : sql.Rows UserTable.Row) (entry : Entry) : Prop :=
  ∃ exp : jiff.Timestamp, entry.expires_at = exp.to_string ∧ ¬ jiff.Truncates now exp ∧
    (now.nanos < exp.nanos → HasSession db (hash_token crates.toCrates entry.token) entry.expires_at)

structure Sound (crates : UserCrates) (parse : String → Option jiff.Timestamp) (w : World ι) : Prop where
  era : 0 ≤ w.now.nanos
  keyed : ∀ key, Keyed (w.servers key).rows
  filed : ∀ key entry, (load w.file).get key = some entry →
    Valid crates w.now (w.servers key).rows entry ∨ ∃ i old, (w.procs i).replaces = some (key, old) ∧
      hash_token crates.toCrates entry.token = hash_token crates.toCrates old.token
  carried : ∀ i key entry, (w.procs i).Carries key entry → Valid crates w.now (w.servers key).rows entry
  apart_filed : ∀ i key entry new, (w.procs i).brings = some (key, new) → (load w.file).get key = some entry →
    hash_token crates.toCrates entry.token ≠ hash_token crates.toCrates new.token
  apart : ∀ i j key entry new, i ≠ j → (w.procs i).brings = some (key, new) → (w.procs j).Carries key entry →
    hash_token crates.toCrates entry.token ≠ hash_token crates.toCrates new.token
  kept : ∀ key ∈ w.issued, (∃ entry, (load w.file).get key = some entry) ∨ ∃ i new, (w.procs i).brings = some (key, new)
  given : ∀ gift ∈ w.given, unexpired parse gift.now (some gift.entry.expires_at) = true → gift.accepted = true

/-- Before the first step the file is one that its servers stand by. -/
structure Starts (crates : UserCrates) (w : World ι) : Prop where
  era : 0 ≤ w.now.nanos
  keyed : ∀ key, Keyed (w.servers key).rows
  filed : ∀ key entry, (load w.file).get key = some entry → Valid crates w.now (w.servers key).rows entry
  started : ∀ i, ∃ command, w.procs i = .started command
  issued : w.issued = []
  given : w.given = []

theorem Starts.sound (h : Starts crates w) : Sound crates parse w := by
  have hnone (i : ι) : (w.procs i).presents = none ∧ (w.procs i).brings = none := by
    obtain ⟨command, hcommand⟩ := h.started i
    simp [hcommand, Proc.presents, Proc.brings]
  refine ⟨h.era, h.keyed, fun key entry hget => .inl (h.filed key entry hget), ?_, ?_, ?_, ?_, ?_⟩
  · rintro i key entry (hcarries | hcarries)
    · simp [(hnone i).1] at hcarries
    · simp [(hnone i).2] at hcarries
  · intro i key entry new hbrings
    simp [(hnone i).2] at hbrings
  · intro i j key entry new _ hbrings
    simp [(hnone i).2] at hbrings
  · simp [h.issued]
  · simp [h.given]

/-- The token of a valid entry is accepted before it expires. -/
theorem accepts_of_valid (hparse : ∀ t : jiff.Timestamp, parse t.to_string = some t) {now : jiff.Timestamp}
    {db : sql.Db UserTable.Row} {entry : Entry} (hera : 0 ≤ now.nanos) (hkeyed : Keyed db.rows)
    (hvalid : Valid crates now db.rows entry) (hunexpired : unexpired parse now (some entry.expires_at) = true) :
    accepts crates now db entry.token = true := by
  obtain ⟨exp, htext, hwhole, hsession⟩ := hvalid
  have hlt : now.nanos < exp.nanos := by simpa [unexpired, htext, hparse] using hunexpired
  have hlive : now.to_string < entry.expires_at := by
    rw [htext]
    exact (jiff.to_string_lt_of_nanos_lt (.inl hera) hlt).resolve_right hwhole
  exact accepts_of_session hkeyed (hsession hlt) hlive

section Steps

variable [DecidableEq ι] {i : ι} {p : Proc} {server_url : String}

theorem set_procs (w : World ι) (j : ι) : (w.set i p).procs j = if j = i then p else w.procs j :=
  Function.update_apply ..

@[simp] theorem set_file (w : World ι) : (w.set i p).file = w.file := rfl

@[simp] theorem set_servers (w : World ι) : (w.set i p).servers = w.servers := rfl

@[simp] theorem set_now (w : World ι) : (w.set i p).now = w.now := rfl

@[simp] theorem set_issued (w : World ι) : (w.set i p).issued = w.issued := rfl

@[simp] theorem set_given (w : World ι) : (w.set i p).given = w.given := rfl

section Frames

omit [DecidableEq ι]

variable (w : World ι) (db : sql.Db UserTable.Row)

@[simp] theorem issue_file : (w.issue server_url).file = w.file := rfl

@[simp] theorem issue_servers : (w.issue server_url).servers = w.servers := rfl

@[simp] theorem issue_now : (w.issue server_url).now = w.now := rfl

@[simp] theorem issue_given : (w.issue server_url).given = w.given := rfl

@[simp] theorem issue_issued : (w.issue server_url).issued = normalize server_url :: w.issued := rfl

@[simp] theorem set_server_file : (w.set_server server_url db).file = w.file := rfl

@[simp] theorem set_server_now : (w.set_server server_url db).now = w.now := rfl

@[simp] theorem set_server_procs : (w.set_server server_url db).procs = w.procs := rfl

@[simp] theorem set_server_issued : (w.set_server server_url db).issued = w.issued := rfl

@[simp] theorem set_server_given : (w.set_server server_url db).given = w.given := rfl

end Frames

omit [DecidableEq ι] in
theorem set_server_servers (w : World ι) (db : sql.Db UserTable.Row) (key : String) :
    (w.set_server server_url db).servers key = if key = normalize server_url then db else w.servers key :=
  Function.update_apply ..

/-- A process that goes by no other entry than before and has the same one to save. -/
theorem Sound.set (h : Sound crates parse w) (hcarries : ∀ key entry, p.Carries key entry → (w.procs i).Carries key entry)
    (hbrings : p.brings = (w.procs i).brings) (hreplaces : p.replaces = (w.procs i).replaces) :
    Sound crates parse (w.set i p) := by
  have hcarried (j : ι) (key : String) (entry : Entry) (hj : ((w.set i p).procs j).Carries key entry) :
      (w.procs j).Carries key entry := by
    simp only [World.set, Function.update_apply] at hj
    split_ifs at hj with hji
    · subst hji
      exact hcarries key entry hj
    · exact hj
  have hbrought (j : ι) : ((w.set i p).procs j).brings = (w.procs j).brings := by
    simp only [World.set, Function.update_apply]
    split_ifs with hji
    · rw [hbrings, hji]
    · rfl
  have hreplaced (j : ι) : ((w.set i p).procs j).replaces = (w.procs j).replaces := by
    simp only [World.set, Function.update_apply]
    split_ifs with hji
    · rw [hreplaces, hji]
    · rfl
  refine ⟨h.era, h.keyed, ?_, fun j key entry hj => h.carried j key entry (hcarried j key entry hj), ?_, ?_, ?_, h.given⟩
  · simp only [hreplaced]
    exact h.filed
  · simp only [hbrought]
    exact h.apart_filed
  · intro j k key entry new hne hj hk
    rw [hbrought] at hj
    exact h.apart j k key entry new hne hj (hcarried k key entry hk)
  · simp only [hbrought]
    exact h.kept

/-- A process that has nothing to save returns a valid entry. -/
theorem Sound.give (hparse : ∀ t : jiff.Timestamp, parse t.to_string = some t) {entry : Entry}
    (h : Sound crates parse (w.set i .finished))
    (hvalid : Valid crates w.now (w.servers (normalize server_url)).rows entry) :
    Sound crates parse (w.give crates i server_url entry) := by
  refine ⟨h.era, h.keyed, h.filed, h.carried, h.apart_filed, h.apart, h.kept, ?_⟩
  intro gift hgift hunexpired
  obtain rfl | hgift := List.mem_cons.mp hgift
  · exact accepts_of_valid hparse h.era (h.keyed _) hvalid hunexpired
  · exact h.given gift hgift hunexpired

omit [DecidableEq ι] in
/-- A server whose rows stay as they are. -/
theorem Sound.set_server (h : Sound crates parse w) {db : sql.Db UserTable.Row}
    (hrows : db.rows = (w.servers (normalize server_url)).rows) : Sound crates parse (w.set_server server_url db) := by
  have hsame (key : String) : ((w.set_server server_url db).servers key).rows = (w.servers key).rows := by
    simp only [World.set_server, Function.update_apply]
    split_ifs with hkey
    · rw [hrows, hkey]
    · rfl
  obtain ⟨hera, hkeyed, hfiled, hcarried, hapart_filed, hapart, hkept, hgiven⟩ := h
  constructor
  all_goals simp only [hsame, set_server_file, set_server_now, set_server_procs, set_server_issued, set_server_given]
  all_goals assumption

/-- A process takes an entry of the file that has not been exchanged. -/
theorem Sound.load (h : Sound crates parse w) {entry : Entry} {store : CredentialStore} (hbrings : (w.procs i).brings = none)
    (hreplaces : (w.procs i).replaces = none) (hlookup : (load w.file).lookup server_url = some entry)
    (hkept : ∀ j old, (w.procs j).replaces = some (normalize server_url, old) →
      hash_token crates.toCrates entry.token ≠ hash_token crates.toCrates old.token) :
    Sound crates parse (w.set i (.loaded server_url store entry)) := by
  have hvalid : Valid crates w.now (w.servers (normalize server_url)).rows entry := by
    obtain hvalid | ⟨j, old, hold, hhash⟩ := h.filed _ _ hlookup
    · exact hvalid
    · exact absurd hhash (hkept j old hold)
  have hprocs (j : ι) : (w.set i (.loaded server_url store entry)).procs j =
      if j = i then .loaded server_url store entry else w.procs j := Function.update_apply ..
  have hbrought (j : ι) : ((w.set i (.loaded server_url store entry)).procs j).brings = (w.procs j).brings := by
    rw [hprocs]
    split_ifs with hji
    · rw [hji, hbrings]
      rfl
    · rfl
  have hreplaced (j : ι) : ((w.set i (.loaded server_url store entry)).procs j).replaces = (w.procs j).replaces := by
    rw [hprocs]
    split_ifs with hji
    · rw [hji, hreplaces]
      rfl
    · rfl
  have hcarried (j : ι) (key : String) (other : Entry)
      (hj : ((w.set i (.loaded server_url store entry)).procs j).Carries key other) :
      key = normalize server_url ∧ other = entry ∨ (w.procs j).Carries key other := by
    rw [hprocs] at hj
    split_ifs at hj with hji
    · obtain hpresents | hbrings := hj
      · obtain ⟨rfl, rfl⟩ := Prod.mk.inj (Option.some.inj hpresents)
        exact .inl ⟨rfl, rfl⟩
      · cases hbrings
    · exact .inr hj
  refine ⟨h.era, h.keyed, ?_, ?_, ?_, ?_, ?_, h.given⟩
  · simp only [hreplaced]
    exact h.filed
  · intro j key other hj
    obtain ⟨rfl, rfl⟩ | hj := hcarried j key other hj
    · exact hvalid
    · exact h.carried j key other hj
  · simp only [hbrought]
    exact h.apart_filed
  · intro j k key other new hne hj hk
    rw [hbrought] at hj
    obtain ⟨rfl, rfl⟩ | hk := hcarried k key other hk
    · exact h.apart_filed j _ _ new hj hlookup
    · exact h.apart j k key other new hne hj hk
  · simp only [hbrought]
    exact h.kept

/-- A process has a session opened, by a login or for an entry that it goes by. -/
theorem Sound.opens (h : Sound crates parse w) {key : String} {db : sql.Db UserTable.Row} {new : Entry}
    {refreshed : Option Entry} (hnow : v.now = w.now) (hfile : v.file = w.file) (hgiven : v.given = w.given)
    (hissued : v.issued = key :: w.issued) (hprocs : ∀ j, v.procs j = if j = i then p else w.procs j)
    (hservers : ∀ k, v.servers k = if k = key then db else w.servers k) (hvalid : Valid crates w.now db.rows new)
    (hopens : Opens (w.servers key).rows db.rows
      (refreshed.map fun old => hash_token crates.toCrates old.token) (hash_token crates.toCrates new.token) new.expires_at)
    (hbrings : (w.procs i).brings = none) (hreplaces : (w.procs i).replaces = none)
    (hpresents : ∀ old, refreshed = some old → (w.procs i).presents = some (key, old))
    (hpresents' : p.presents = none) (hbrings' : p.brings = some (key, new))
    (hreplaces' : p.replaces = refreshed.map fun old => (key, old))
    (hfresh : ∀ entry, w.Holds entry → hash_token crates.toCrates entry.token ≠ hash_token crates.toCrates new.token)
    (hunshared : ∀ old, (w.procs i).presents = some (key, old) → ∀ j, j ≠ i →
      ∀ other, (w.procs j).presents = some (key, other) →
        hash_token crates.toCrates other.token ≠ hash_token crates.toCrates old.token) :
    Sound crates parse v := by
  have hkept (k : String) (entry : Entry) (hentry : Valid crates w.now (w.servers k).rows entry)
      (hother : ∀ old, refreshed = some old → k = key →
        hash_token crates.toCrates old.token ≠ hash_token crates.toCrates entry.token) :
      Valid crates w.now (v.servers k).rows entry := by
    obtain ⟨exp, htext, hwhole, hsession⟩ := hentry
    refine ⟨exp, htext, hwhole, fun hlt => ?_⟩
    rw [hservers]
    split_ifs with hkey
    · subst hkey
      refine hopens.kept _ _ (hsession hlt) fun hrevoked => ?_
      obtain ⟨old, hold, hhash⟩ := Option.map_eq_some_iff.mp hrevoked
      exact hother old hold rfl hhash
    · exact hsession hlt
  have hbrought (j : ι) (k : String) (entry : Entry) (hj : (v.procs j).brings = some (k, entry)) :
      j = i ∧ k = key ∧ entry = new ∨ j ≠ i ∧ (w.procs j).brings = some (k, entry) := by
    rw [hprocs] at hj
    split_ifs at hj with hji
    · obtain ⟨rfl, rfl⟩ := Prod.mk.inj (Option.some.inj (hbrings'.symm.trans hj))
      exact .inl ⟨hji, rfl, rfl⟩
    · exact .inr ⟨hji, hj⟩
  have hcarried (j : ι) (k : String) (entry : Entry) (hj : (v.procs j).Carries k entry) :
      j = i ∧ k = key ∧ entry = new ∨ j ≠ i ∧ (w.procs j).Carries k entry := by
    obtain hj | hj := hj
    · rw [hprocs] at hj
      split_ifs at hj with hji
      · rw [hpresents'] at hj
        cases hj
      · exact .inr ⟨hji, .inl hj⟩
    · exact (hbrought j k entry hj).imp_right fun hj => ⟨hj.1, .inr hj.2⟩
  refine ⟨hnow ▸ h.era, ?_, ?_, ?_, ?_, ?_, ?_, hgiven ▸ h.given⟩
  · intro k
    rw [hservers]
    split_ifs
    · exact hopens.keyed
    · exact h.keyed k
  · intro k entry hget
    rw [hfile] at hget
    rw [hnow]
    obtain hentry | ⟨j, old, hold, hhash⟩ := h.filed k entry hget
    · by_cases hexchanged : ∃ old, refreshed = some old ∧ k = key ∧
          hash_token crates.toCrates old.token = hash_token crates.toCrates entry.token
      · obtain ⟨old, rfl, rfl, hhash⟩ := hexchanged
        refine .inr ⟨i, old, ?_, hhash.symm⟩
        rw [hprocs, if_pos rfl, hreplaces']
        rfl
      · exact .inl (hkept k entry hentry fun old hold hkey hhash => hexchanged ⟨old, hold, hkey, hhash⟩)
    · refine .inr ⟨j, old, ?_, hhash⟩
      have hji : j ≠ i := fun hji => by simp [hji, hreplaces] at hold
      rwa [hprocs, if_neg hji]
  · intro j k entry hj
    rw [hnow]
    obtain ⟨-, rfl, rfl⟩ | ⟨hji, hj⟩ := hcarried j k entry hj
    · rwa [hservers, if_pos rfl]
    · refine hkept k entry (h.carried j k entry hj) fun old hold hkey => ?_
      subst hkey
      obtain hj | hj := hj
      · exact (hunshared old (hpresents old hold) j hji entry hj).symm
      · exact h.apart j i k old entry hji hj (.inl (hpresents old hold))
  · intro j k entry other hj hget
    rw [hfile] at hget
    obtain ⟨-, rfl, rfl⟩ | ⟨-, hj⟩ := hbrought j k other hj
    · exact hfresh entry ⟨k, .inl hget⟩
    · exact h.apart_filed j k entry other hj hget
  · intro j k key' entry other hne hj hk
    obtain ⟨hji, rfl, rfl⟩ | ⟨hji, hj⟩ := hbrought j key' other hj
    · obtain ⟨hki, -⟩ | ⟨-, hk⟩ := hcarried k key' entry hk
      · exact absurd (hji.trans hki.symm) hne
      · exact hfresh entry ⟨key', .inr ⟨k, hk⟩⟩
    · obtain ⟨-, rfl, rfl⟩ | ⟨-, hk⟩ := hcarried k key' entry hk
      · exact (hfresh other ⟨key', .inr ⟨j, .inr hj⟩⟩).symm
      · exact h.apart j k key' entry other hne hj hk
  · intro k hk
    rw [hissued] at hk
    rw [hfile]
    obtain rfl | hk := List.mem_cons.mp hk
    · exact .inr ⟨i, new, by rw [hprocs, if_pos rfl, hbrings']⟩
    · refine (h.kept k hk).imp_right ?_
      rintro ⟨j, other, hj⟩
      have hji : j ≠ i := fun hji => by simp [hji, hbrings] at hj
      exact ⟨j, other, by rwa [hprocs, if_neg hji]⟩

/-- A process puts its entry into a file whose other entries are as it read them. -/
theorem Sound.filed_entry (h : Sound crates parse w) {key : String} {entry : Entry} (hnow : v.now = w.now)
    (hservers : v.servers = w.servers) (hgiven : v.given = w.given) (hissued : v.issued = w.issued)
    (hprocs : ∀ j, v.procs j = if j = i then .finished else w.procs j)
    (hfile : ∀ k, (credentials.load v.file).get k = if k = key then some entry else (credentials.load w.file).get k)
    (hbrings : (w.procs i).brings = some (key, entry))
    (hreplaces : ∀ k old, (w.procs i).replaces = some (k, old) → k = key) : Sound crates parse v := by
  have hcarried (j : ι) (k : String) (other : Entry) (hj : (v.procs j).Carries k other) : j ≠ i ∧ (w.procs j).Carries k other := by
    rw [hprocs] at hj
    split_ifs at hj with hji
    · rcases hj with hj | hj <;> cases hj
    · exact ⟨hji, hj⟩
  have hbrought (j : ι) (k : String) (other : Entry) (hj : (v.procs j).brings = some (k, other)) :
      j ≠ i ∧ (w.procs j).brings = some (k, other) := by
    rw [hprocs] at hj
    split_ifs at hj with hji
    · cases hj
    · exact ⟨hji, hj⟩
  refine ⟨hnow ▸ h.era, hservers ▸ h.keyed, ?_, ?_, ?_, ?_, ?_, hgiven ▸ h.given⟩
  · intro k other hother
    rw [hnow, hservers]
    rw [hfile] at hother
    split_ifs at hother with hkey
    · obtain rfl := Option.some.inj hother
      exact .inl (h.carried i k entry (.inr (hkey ▸ hbrings)))
    · refine (h.filed k other hother).imp_right ?_
      rintro ⟨j, old, hold, hhash⟩
      have hji : j ≠ i := fun hji => hkey (hreplaces k old (by rwa [hji] at hold))
      exact ⟨j, old, by rwa [hprocs, if_neg hji], hhash⟩
  · intro j k other hj
    rw [hnow, hservers]
    exact h.carried j k other (hcarried j k other hj).2
  · intro j k other new hj hother
    obtain ⟨hji, hj⟩ := hbrought j k new hj
    rw [hfile] at hother
    split_ifs at hother with hkey
    · obtain rfl := Option.some.inj hother
      exact h.apart j i k entry new hji hj (.inr (hkey ▸ hbrings))
    · exact h.apart_filed j k other new hj hother
  · intro j k key' other new hne hj hk
    exact h.apart j k key' other new hne (hbrought j key' new hj).2 (hcarried k key' other hk).2
  · intro k hk
    rw [hissued] at hk
    rw [hfile]
    split_ifs with hsaved
    · exact .inl ⟨entry, rfl⟩
    · refine (h.kept k hk).imp_right ?_
      rintro ⟨j, new, hj⟩
      have hji : j ≠ i := fun hji => hsaved (by
        rw [hji, hbrings] at hj
        exact (Prod.mk.inj (Option.some.inj hj)).1.symm)
      exact ⟨j, new, by rwa [hprocs, if_neg hji]⟩

omit [DecidableEq ι] in
/-- The clock goes on, without its text being that of an expiry cut short. -/
theorem Sound.tick (hparse : ∀ t : jiff.Timestamp, parse t.to_string = some t) (h : Sound crates parse w) {now : jiff.Timestamp}
    (hlater : w.now.nanos ≤ now.nanos)
    (hwhole : ∀ entry exp, w.Holds entry → parse entry.expires_at = some exp → ¬ jiff.Truncates now exp) :
    Sound crates parse { w with now } := by
  have hvalid (db : sql.Rows UserTable.Row) (entry : Entry) (hholds : w.Holds entry)
      (hvalid : Valid crates w.now db entry) : Valid crates now db entry := by
    obtain ⟨exp, htext, -, hsession⟩ := hvalid
    exact ⟨exp, htext, hwhole entry exp hholds (htext ▸ hparse exp), fun hlt => hsession (lt_of_le_of_lt hlater hlt)⟩
  refine ⟨h.era.trans hlater, h.keyed, ?_, ?_, h.apart_filed, h.apart, h.kept, h.given⟩
  · exact fun key entry hget => (h.filed key entry hget).imp_left (hvalid _ entry ⟨key, .inl hget⟩)
  · exact fun i key entry hi => hvalid _ entry ⟨key, .inr ⟨i, hi⟩⟩ (h.carried i key entry hi)

/-- The entry of an answer is valid on the server that gave it: it has a day to live. -/
theorem valid_of_answers {now : jiff.Timestamp} {token username : String} {revoked : Option String}
    {db after : sql.Rows UserTable.Row} {answer : String × String × UserRecord}
    (h : Answers crates now TOKEN_TTL_SECS token revoked db after answer) :
    Valid crates now after (new_entry now username answer) := by
  obtain ⟨htoken, hexpiry, hopens⟩ := h
  obtain ⟨exp, htext, hnanos⟩ := user_token_expiry_ok hexpiry
  refine ⟨exp, htext, fun htruncates => ?_, fun _ => ?_⟩
  · have hsecond := htruncates.1
    simp only [jiff.Timestamp.second, jiff.nanos_per_second, TOKEN_TTL_SECS] at hsecond hnanos
    omega
  · have hopened := hopens.opened
    rwa [← htoken] at hopened

variable (hparse : ∀ t : jiff.Timestamp, parse t.to_string = some t) (h : Sound crates parse w)

include h

theorem Sound.login {user password token : String} (hproc : w.procs i = .started (.login server_url user password))
    (hfresh : ∀ entry, w.Holds entry → hash_token crates.toCrates entry.token ≠ hash_token crates.toCrates token) :
    Sound crates parse (w.login crates i server_url user password token) := by
  have hbrings : (w.procs i).brings = none := by rw [hproc]; rfl
  have hreplaces : (w.procs i).replaces = none := by rw [hproc]; rfl
  have hpresents : (w.procs i).presents = none := by rw [hproc]; rfl
  have hcases := @login_cases crates (w.servers (normalize server_url))
    { username := user, password, token, ttl_secs := TOKEN_TTL_SECS, now := w.now } (h.keyed _)
  rw [World.login]
  obtain ⟨e, after, hexec, hrows⟩ | ⟨answer, after, hexec, hanswers⟩ := hcases
  · simp only [hexec]
    refine (h.set_server hrows).set (fun key entry hcarries => ?_) hbrings.symm hreplaces.symm
    rcases hcarries with hcarries | hcarries <;> cases hcarries
  · simp only [hexec]
    have hvalid := @valid_of_answers crates _ _ user _ _ _ _ hanswers
    obtain ⟨rfl, -, hopens⟩ := hanswers
    exact @Sound.opens _ crates parse w _ _ i (.logged_in server_url (new_entry w.now user answer)) h (normalize server_url)
      after (new_entry w.now user answer) none (by simp) (by simp) (by simp) (by simp) (fun j => set_procs _ j)
      (fun k => by rw [set_servers, issue_servers, set_server_servers]) hvalid hopens hbrings hreplaces
      (fun old hold => by cases hold) rfl rfl rfl hfresh
      (fun old hold => by rw [hpresents] at hold; cases hold)

/-- A process that has nothing to save ends without a token. -/
theorem Sound.drop (hbrings : (w.procs i).brings = none) (hreplaces : (w.procs i).replaces = none) :
    Sound crates parse (w.set i .finished) :=
  h.set (fun _ _ hcarries => hcarries.elim nofun nofun) hbrings.symm hreplaces.symm

theorem Sound.resolve {iac_admin_token : Option String} (hproc : w.procs i = .started (.resolve server_url iac_admin_token))
    (hkept : ∀ entry, (credentials.load w.file).lookup server_url = some entry →
      ∀ j old, (w.procs j).replaces = some (normalize server_url, old) →
        hash_token crates.toCrates entry.token ≠ hash_token crates.toCrates old.token) :
    Sound crates parse (w.resolve i server_url iac_admin_token) := by
  have hbrings : (w.procs i).brings = none := by rw [hproc]; rfl
  have hreplaces : (w.procs i).replaces = none := by rw [hproc]; rfl
  rw [World.resolve]
  split_ifs
  · exact h.drop hbrings hreplaces
  · split
    · exact h.drop hbrings hreplaces
    · rename_i entry hlookup
      exact h.load hbrings hreplaces hlookup (hkept entry hlookup)

include hparse

theorem Sound.refresh {store : CredentialStore} {entry : Entry} {token : String}
    (hproc : w.procs i = .refreshing server_url store entry)
    (hfresh : ∀ entry, w.Holds entry → hash_token crates.toCrates entry.token ≠ hash_token crates.toCrates token)
    (hunshared : ∀ key entry, (w.procs i).presents = some (key, entry) → ∀ j, j ≠ i →
      ∀ other, (w.procs j).presents = some (key, other) →
        hash_token crates.toCrates other.token ≠ hash_token crates.toCrates entry.token) :
    Sound crates parse (w.refresh crates i server_url store entry token) := by
  have hbrings : (w.procs i).brings = none := by rw [hproc]; rfl
  have hreplaces : (w.procs i).replaces = none := by rw [hproc]; rfl
  have hpresents : (w.procs i).presents = some (normalize server_url, entry) := by rw [hproc]; rfl
  have hcases := @refresh_cases crates (w.servers (normalize server_url))
    { token := entry.token, new_token := token, ttl_secs := TOKEN_TTL_SECS, now := w.now } (h.keyed _)
  rw [World.refresh]
  obtain ⟨e, after, hexec, hrows⟩ | ⟨answer, after, hexec, hanswers⟩ := hcases
  · simp only [hexec]
    have hserver := h.set_server hrows
    have hset : Sound crates parse ((w.set_server server_url after).set i .finished) :=
      hserver.set (fun key entry hcarries => hcarries.elim nofun nofun) hbrings.symm hreplaces.symm
    exact hset.give hparse (hserver.carried i _ entry (.inl hpresents))
  · simp only [hexec]
    have hvalid := @valid_of_answers crates _ _ entry.username _ _ _ _ hanswers
    obtain ⟨rfl, -, hopens⟩ := hanswers
    exact @Sound.opens _ crates parse w _ _ i (.saving server_url store (new_entry w.now entry.username answer) (some entry)) h
      (normalize server_url) after (new_entry w.now entry.username answer) (some entry) (by simp) (by simp) (by simp) (by simp)
      (fun j => set_procs _ j) (fun k => by rw [set_servers, issue_servers, set_server_servers]) hvalid hopens hbrings hreplaces
      (fun old hold => Option.some.inj hold ▸ hpresents) rfl rfl rfl hfresh (hunshared _)

theorem Sound.save {store : CredentialStore} {entry : Entry} {refreshed : Option Entry}
    (hproc : w.procs i = .saving server_url store entry refreshed)
    (hsame : ∀ key, key ≠ normalize server_url → (credentials.load w.file).get key = store.get key) :
    Sound crates parse (w.save crates i server_url store entry refreshed) := by
  have hbrings : (w.procs i).brings = some (normalize server_url, entry) := by rw [hproc]; rfl
  have hreplaces (key : String) (old : Entry) (hi : (w.procs i).replaces = some (key, old)) : key = normalize server_url := by
    rw [hproc] at hi
    cases refreshed with
    | none => cases hi
    | some other => exact (Prod.mk.inj (Option.some.inj hi)).1.symm
  have hget (key : String) : (store.upsert server_url entry).get key =
      if key = normalize server_url then some entry else (credentials.load w.file).get key := by
    rw [get_upsert]
    split_ifs with hkey
    · rfl
    · exact (hsame key hkey).symm
  have hset : Sound crates parse (({ w with file := some (store.upsert server_url entry) } : World ι).set i .finished) :=
    h.filed_entry rfl rfl rfl rfl (fun j => set_procs _ j) hget hbrings hreplaces
  rw [World.save]
  split_ifs
  · exact hset.give hparse (h.carried i _ entry (.inr hbrings))
  · exact hset

/-- Every orderly step keeps the file and the processes sound. -/
theorem Sound.step {a : Action ι} (hallowed : orderly crates parse w a) (hstep : step crates parse w a = some v) :
    Sound crates parse v := by
  cases a with
  | tick now =>
    simp only [credentials.step] at hstep
    split_ifs at hstep with hlater
    obtain rfl := Option.some.inj hstep
    exact h.tick hparse hlater hallowed
  | load i =>
    simp only [credentials.step] at hstep
    split at hstep
    · rename_i server_url iac_admin_token hproc
      obtain rfl := Option.some.inj hstep
      exact h.resolve hproc (hallowed _ _ hproc)
    · rename_i server_url entry hproc
      obtain rfl := Option.some.inj hstep
      refine h.set (fun key other hcarries => ?_) (by rw [hproc]; rfl) (by rw [hproc]; rfl)
      exact .inr (hcarries.elim nofun fun hbrings => by rw [hproc]; exact hbrings)
    · cases hstep
  | check i =>
    simp only [credentials.step] at hstep
    split at hstep
    · rename_i server_url store entry hproc
      have hpresents : (w.procs i).presents = some (normalize server_url, entry) := by rw [hproc]; rfl
      split_ifs at hstep
      · obtain rfl := Option.some.inj hstep
        refine h.set (fun key other hcarries => ?_) (by rw [hproc]; rfl) (by rw [hproc]; rfl)
        exact .inl (hcarries.elim (fun hgoes => by rw [hproc]; exact hgoes) nofun)
      · obtain rfl := Option.some.inj hstep
        exact (h.drop (by rw [hproc]; rfl) (by rw [hproc]; rfl)).give hparse (h.carried i _ entry (.inl hpresents))
    · cases hstep
  | ask i token =>
    simp only [credentials.step] at hstep
    split at hstep
    · rename_i server_url user password hproc
      obtain rfl := Option.some.inj hstep
      exact h.login hproc hallowed.1
    · rename_i server_url store entry hproc
      obtain rfl := Option.some.inj hstep
      exact h.refresh hparse hproc hallowed.1 hallowed.2
    · cases hstep
  | refused i =>
    simp only [credentials.step] at hstep
    split at hstep
    · rename_i hproc
      obtain rfl := Option.some.inj hstep
      exact h.drop (by rw [hproc]; rfl) (by rw [hproc]; rfl)
    · rename_i server_url store entry hproc
      obtain rfl := Option.some.inj hstep
      have hpresents : (w.procs i).presents = some (normalize server_url, entry) := by rw [hproc]; rfl
      exact (h.drop (by rw [hproc]; rfl) (by rw [hproc]; rfl)).give hparse (h.carried i _ entry (.inl hpresents))
    · cases hstep
  | save i =>
    simp only [credentials.step] at hstep
    split at hstep
    · rename_i server_url store entry refreshed hproc
      obtain rfl := Option.some.inj hstep
      exact h.save hparse hproc (hallowed _ _ _ _ hproc)
    · cases hstep

omit [DecidableEq ι] in
theorem Sound.keeps : KeepsLiveTokens crates parse w := by
  refine ⟨fun hended key hkey => ?_, h.given⟩
  have hnone (i : ι) : (w.procs i).brings = none ∧ (w.procs i).replaces = none := by
    rcases hended i with hproc | ⟨command, hproc⟩ <;> simp [hproc, Proc.brings, Proc.replaces]
  obtain ⟨entry, hget⟩ : ∃ entry, (credentials.load w.file).get key = some entry := by
    obtain hfiled | ⟨i, new, hi⟩ := h.kept key hkey
    · exact hfiled
    · simp [(hnone i).1] at hi
  refine ⟨entry, hget, fun hunexpired => ?_⟩
  obtain hvalid | ⟨i, old, hold, -⟩ := h.filed key entry hget
  · exact accepts_of_valid hparse h.era (h.keyed key) hvalid hunexpired
  · simp [(hnone i).2] at hold

end Steps

/-- Processes that stay out of each other's way keep the tokens of the file live. -/
theorem orderly_processes_keep_live_tokens [DecidableEq ι] {start : World ι}
    (hparse : ∀ t : jiff.Timestamp, parse t.to_string = some t) (hstarts : Starts crates start)
    (hrun : transition.Run (step crates parse) (orderly crates parse) start w) : KeepsLiveTokens crates parse w := by
  have hsound : Sound crates parse w :=
    hrun.invariant hstarts.sound fun t u a ht hallowed hstep => ht.step hparse hallowed hstep
  exact hsound.keeps hparse

section Logins

/-- jiff's reader, on the texts that it prints. -/
noncomputable def read_printed : String → Option jiff.Timestamp := Function.partialInv jiff.Timestamp.to_string

theorem read_printed_to_string (t : jiff.Timestamp) : read_printed t.to_string = some t :=
  Function.partialInv_left jiff.to_string_injective t

/-- Alice is known to every server, the file is missing, and each process is a login at its server. -/
def logins {ι : Type} (server_url : ι → String) : World ι where
  file := none
  servers _ := only_alice.db
  now := midnight
  procs i := .started (.login (server_url i) "alice" "old")

theorem logins_start {ι : Type} (server_url : ι → String) : Starts user_crates (logins server_url) := by
  refine ⟨(by decide : 0 ≤ midnight.nanos), fun _ => ⟨only_alice.ids, List.nodup_nil⟩, ?_, fun i => ⟨_, rfl⟩, rfl, rfl⟩
  intro key entry hget
  cases hget

/-- The steps of a login that no other process is beside. -/
def alone (w : World Unit) : Action Unit → Bool
  | .ask _ _ => w.file.isNone && (match w.procs () with | .started _ => true | _ => false)
  | .load _ => match w.procs () with | .logged_in _ _ => true | _ => false
  | .save _ => match w.procs () with
    | .saving _ store _ _ => decide (store.credentials = (load w.file).credentials)
    | _ => false
  | _ => false

theorem orderly_of_alone {w : World Unit} {a : Action Unit} (h : alone w a = true) : orderly crates parse w a := by
  cases a with
  | tick now | check i | refused i => cases h
  | ask i token =>
    simp only [alone, Bool.and_eq_true, Option.isNone_iff_eq_none] at h
    obtain ⟨hfile, hstarted⟩ := h
    split at hstarted
    · rename_i command hproc
      refine ⟨?_, fun _ _ _ j hne => absurd rfl hne⟩
      rintro entry ⟨key, hget | ⟨j, hj⟩⟩
      · simp [load, hfile, CredentialStore.get] at hget
      · simp [Proc.Carries, show w.procs j = .started command from hproc, Proc.presents, Proc.brings] at hj
    · cases hstarted
  | load i =>
    intro server_url iac_admin_token hproc
    simp [alone, hproc] at h
  | save i =>
    intro server_url store entry refreshed hproc key _
    have hsame : store.credentials = (credentials.load w.file).credentials := by simpa [alone, hproc] using h
    rw [CredentialStore.get, CredentialStore.get, hsame]

/-- A login that is alone leaves the token it was issued in the file. -/
theorem lone_login_is_kept : ∃ w : World Unit, w.issued = ["http://a"] ∧ w.ended ∧
    KeepsLiveTokens user_crates read_printed w := by
  have hfollow : (transition.follow (step user_crates read_printed) alone (logins fun _ => "http://a/")
      [.ask () "t1", .load (), .save ()]).any
        (fun w => decide (w.issued = ["http://a"]) && match w.procs () with | .finished => true | _ => false) = true := by
    set_option maxRecDepth 4000 in decide
  obtain ⟨w, hrun, hw⟩ := transition.run_of_follow (fun _ _ => orderly_of_alone) hfollow
  simp only [Bool.and_eq_true, decide_eq_true_eq] at hw
  refine ⟨w, hw.1, fun i => .inl ?_, orderly_processes_keep_live_tokens read_printed_to_string (logins_start _) hrun⟩
  have hend := hw.2
  split at hend
  · assumption
  · cases hend

/-- Both logins have their token before either reads the file, and the one that saves last drops that of the other. -/
theorem second_login_drops_first :
    ¬ ∀ (ι : Type) (_ : DecidableEq ι) (crates : UserCrates) (parse : String → Option jiff.Timestamp) (start w : World ι),
      (∀ t : jiff.Timestamp, parse t.to_string = some t) → Starts crates start →
      transition.Run (step crates parse) (fun _ _ => True) start w → KeepsLiveTokens crates parse w := by
  intro hclaim
  have hfollow : (transition.follow (step user_crates read_printed) (fun _ _ => true)
      (logins fun second : Bool => if second then "http://b" else "http://a")
      [.ask false "t1", .ask true "t2", .load false, .load true, .save false, .save true]).any
        (fun w => decide ("http://a" ∈ w.issued) && ((load w.file).get "http://a").isNone &&
          [false, true].all fun i => match w.procs i with | .finished => true | _ => false) = true := by
    set_option maxRecDepth 4000 in decide
  obtain ⟨w, hrun, hw⟩ := transition.run_of_follow (fun _ _ _ => trivial) hfollow
  simp only [Bool.and_eq_true, decide_eq_true_eq, List.all_cons, List.all_nil, Option.isNone_iff_eq_none] at hw
  obtain ⟨⟨hissued, hdropped⟩, hfirst, hsecond, -⟩ := hw
  have hended : w.ended := by
    intro i
    refine .inl ?_
    cases i with
    | false =>
      split at hfirst
      · assumption
      · cases hfirst
    | true =>
      split at hsecond
      · assumption
      · cases hsecond
  have hkeeps := hclaim Bool _ user_crates read_printed _ w read_printed_to_string (logins_start _) hrun
  obtain ⟨entry, hget, -⟩ := hkeeps.filed hended _ hissued
  rw [hdropped] at hget
  cases hget

end Logins

end iac_cli.credentials
