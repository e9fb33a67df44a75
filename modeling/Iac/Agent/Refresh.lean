import Iac.Agent.Remote
import Iac.Collections.Fallible
import Iac.Core.Dalek

namespace iac_agent.remote

/-- The client in memory, with the verifiers it made of its identity, and the identity file. -/
structure Holder where
  file : Option Identity
  identity : Identity
  verifiers : String → Option (List UInt8)

/-- The public key of an id in a `HashMap` made of the entries; the last of several equal ids wins. -/
def last_key (keys : List ServerPubkey) (key_id : String) : Option String :=
  (keys.reverse.find? fun k => k.key_id == key_id).map ServerPubkey.public_key

def verifier_set (libraries : Libraries) (identity : Identity) : Except String (String → Option (List UInt8)) :=
  match build_verifier_set libraries identity with
  | .error e => .error e
  | .ok () => .ok fun key_id => (last_key identity.server_pubkeys key_id).bind libraries.decode

/-- What a bundle must fulfil to take the place of the pinned keys. -/
def check_refresh (identity : Identity) (bundle : SigningPubkeyBundle) : Except String Unit :=
  if bundle.keys.any fun k => identity.server_pubkeys.any fun pinned => pinned.key_id == k.key_id then
    match identity.server_pubkeys.find? (diverged bundle) with
    | some pinned => .error ("refresh: pinned key " ++ pinned.key_id ++ " pubkey diverged from server")
    | none => .ok ()
  else .error "refresh: server bundle has no overlap with pinned keys; not updating"

/-- The bundle of a response, an error of which is one of the request or of its decoding. -/
def fetched_bundle (response : Except String SigningPubkeyBundle) : Except String SigningPubkeyBundle :=
  match response with
  | .error _ => .error "fetching server signing bundle for refresh"
  | .ok bundle => (check_bundle bundle).mapError fun _ => "fetching server signing bundle for refresh"

def Holder.refresh_signing_keys (libraries : Libraries) (response : Except String SigningPubkeyBundle) (writable : Bool)
    (self : Holder) : Except String Unit × Holder :=
  match fetched_bundle response with
  | .error e => (.error e, self)
  | .ok bundle =>
    match check_refresh self.identity bundle with
    | .error e => (.error e, self)
    | .ok () =>
      let new_identity := self.identity.pin bundle
      -- `persist_identity`: the file is replaced by a rename or left as it is.
      if writable then
        let self := { self with file := some new_identity }
        match verifier_set libraries new_identity with
        | .error e => (.error e, self)
        | .ok verifiers => (.ok (), { self with identity := new_identity, verifiers })
      else (.error "renaming identity file", self)

/-- An entry of the old set is in the new one, and the new set has for no
pinned id an entry with another public key. -/
structure Continues (old new : List ServerPubkey) : Prop where
  overlap : ∃ pinned ∈ old, pinned ∈ new
  unchanged : ∀ pinned ∈ old, ∀ entry ∈ new, entry.key_id = pinned.key_id → entry.public_key = pinned.public_key

/-- A failed refresh changes neither the verifiers nor the file, and one that succeeds continues the pinned set. -/
def RefreshAtomic (libraries : Libraries) (response : Except String SigningPubkeyBundle) (writable : Bool) (self : Holder) :
    Prop :=
  match self.refresh_signing_keys libraries response writable with
  | (.error _, after) => after.identity = self.identity ∧ after.verifiers = self.verifiers ∧ after.file = self.file
  | (.ok (), after) => Continues self.identity.server_pubkeys after.identity.server_pubkeys

/-- A verifying key can be made of the entry. -/
def usable (libraries : Libraries) (entry : ServerPubkey) : Prop :=
  ∃ bytes, libraries.decode entry.public_key = some bytes ∧ bytes.length = 32 ∧ libraries.valid_key bytes

/-- The bundle lists a pinned id with another public key. -/
def Replaces (old : List ServerPubkey) (bundle : SigningPubkeyBundle) : Prop :=
  ∃ pinned ∈ old, ∃ entry ∈ bundle.keys, entry.key_id = pinned.key_id ∧ entry.public_key ≠ pinned.public_key

/-- The bundle has the active key, shares an id with the pinned set and repeats
the pinned keys in the last entries of their ids; and either it has an entry of
which no verifying key can be made and is not what the file holds already, or it
has none and an earlier entry of a pinned id has another key. -/
structure Spoils (libraries : Libraries) (holder : Holder) (bundle : SigningPubkeyBundle) : Prop where
  active : bundle.active_key_id ∈ bundle.keys.map ServerPubkey.key_id
  overlap : ∃ pinned ∈ holder.identity.server_pubkeys, pinned.key_id ∈ bundle.keys.map ServerPubkey.key_id
  unchanged : ∀ pinned ∈ holder.identity.server_pubkeys, ∀ public_key, last_key bundle.keys pinned.key_id = some public_key →
    public_key = pinned.public_key
  breaks : ((∃ entry ∈ bundle.keys, ¬ usable libraries entry) ∧ holder.file ≠ some (holder.identity.pin bundle)) ∨
    (∀ entry ∈ bundle.keys, usable libraries entry) ∧ Replaces holder.identity.server_pubkeys bundle

section Checks

variable {libraries : Libraries} {identity : Identity} {bundle : SigningPubkeyBundle} {keys : List ServerPubkey}
  {key_id : String}

theorem last_key_eq_none_iff : last_key keys key_id = none ↔ key_id ∉ keys.map ServerPubkey.key_id := by
  simp [last_key]

theorem mem_of_last_key {public_key : String} (h : last_key keys key_id = some public_key) : ⟨key_id, public_key⟩ ∈ keys := by
  obtain ⟨entry, hfind, rfl⟩ := Option.map_eq_some_iff.mp h
  have hid : entry.key_id = key_id := by simpa using List.find?_some hfind
  rw [← hid]
  exact List.mem_reverse.mp (List.mem_of_find?_eq_some hfind)

theorem verifier_set_isOk_iff :
    (verifier_set libraries identity).isOk ↔ ∀ entry ∈ identity.server_pubkeys, usable libraries entry := by
  have hbuild : build_verifier_set libraries identity = .ok () ↔ ∀ entry ∈ identity.server_pubkeys, usable libraries entry := by
    rw [build_verifier_set, List.forM_eq_forM, fallible.forM_ok_iff]
    refine forall₂_congr fun entry _ => ?_
    rw [usable]
    cases libraries.decode entry.public_key with
    | none => simp
    | some bytes =>
      simp only [ne_eq, ite_not, Option.some.injEq, exists_eq_left']
      split
      · next hlength => simp [hlength]
      · next hlength => simp [hlength]
  rw [← hbuild, verifier_set]
  split
  · next e herror => simp [herror, Except.isOk, Except.toBool]
  · next hok => simp [hok, Except.isOk, Except.toBool]

theorem diverged_eq_false_iff {pinned : ServerPubkey} :
    diverged bundle pinned = false ↔ ∀ public_key, last_key bundle.keys pinned.key_id = some public_key →
      public_key = pinned.public_key := by
  rw [diverged, key_by_id, ← last_key]
  cases last_key bundle.keys pinned.key_id <;> simp

theorem check_refresh_ok_iff : check_refresh identity bundle = .ok () ↔
    (∃ pinned ∈ identity.server_pubkeys, pinned.key_id ∈ bundle.keys.map ServerPubkey.key_id) ∧
      ∀ pinned ∈ identity.server_pubkeys, ∀ public_key, last_key bundle.keys pinned.key_id = some public_key →
        public_key = pinned.public_key := by
  have hoverlap : (bundle.keys.any fun k => identity.server_pubkeys.any fun pinned => pinned.key_id == k.key_id) = true ↔
      ∃ pinned ∈ identity.server_pubkeys, pinned.key_id ∈ bundle.keys.map ServerPubkey.key_id := by
    simp only [List.any_eq_true, beq_iff_eq, List.mem_map]
    exact ⟨fun ⟨k, hk, pinned, hpinned, hid⟩ => ⟨pinned, hpinned, k, hk, hid.symm⟩,
      fun ⟨pinned, hpinned, k, hk, hid⟩ => ⟨k, hk, pinned, hpinned, hid.symm⟩⟩
  have hunchanged : identity.server_pubkeys.find? (diverged bundle) = none ↔ ∀ pinned ∈ identity.server_pubkeys,
      ∀ public_key, last_key bundle.keys pinned.key_id = some public_key → public_key = pinned.public_key := by
    rw [List.find?_eq_none]
    exact forall₂_congr fun pinned _ => by rw [Bool.not_eq_true, diverged_eq_false_iff]
  rw [check_refresh, ← hoverlap, ← hunchanged]
  split
  · next hany =>
    rw [and_iff_right hany]
    cases identity.server_pubkeys.find? (diverged bundle) <;> simp
  · next hany => exact iff_of_false (by simp) fun h => hany h.1

theorem fetched_bundle_ok_iff {response : Except String SigningPubkeyBundle} : fetched_bundle response = .ok bundle ↔
    response = .ok bundle ∧ bundle.active_key_id ∈ bundle.keys.map ServerPubkey.key_id := by
  have hcheck (fetched : SigningPubkeyBundle) : (check_bundle fetched).mapError
      (fun _ => "fetching server signing bundle for refresh") = .ok bundle ↔
        fetched = bundle ∧ bundle.active_key_id ∈ bundle.keys.map ServerPubkey.key_id := by
    rw [check_bundle]
    split
    · next hempty =>
      refine iff_of_false (by simp) ?_
      rintro ⟨rfl, hactive⟩
      simp [List.isEmpty_iff.mp hempty] at hactive
    · split
      · next hactive =>
        have hlisted : fetched.active_key_id ∈ fetched.keys.map ServerPubkey.key_id := by
          simpa [List.any_eq_true] using hactive
        simp only [fallible.mapError_ok, Except.ok.injEq]
        exact ⟨fun heq => ⟨heq, heq ▸ hlisted⟩, fun h => h.1⟩
      · next hinactive =>
        refine iff_of_false (by simp) ?_
        rintro ⟨rfl, hactive⟩
        exact hinactive (by simpa [List.any_eq_true] using hactive)
  cases response with
  | error e => simp [fetched_bundle]
  | ok fetched => rw [fetched_bundle, hcheck, Except.ok.injEq]

end Checks

section Refresh

variable {libraries : Libraries} {response : Except String SigningPubkeyBundle} {writable : Bool} {self : Holder}

/-- A bundle that passes the checks continues the pinned set unless it lists a pinned id with another key as well. -/
theorem continues_iff_of_checks {identity : Identity} {bundle : SigningPubkeyBundle}
    (h : check_refresh identity bundle = .ok ()) :
    Continues identity.server_pubkeys bundle.keys ↔ ¬ Replaces identity.server_pubkeys bundle := by
  obtain ⟨⟨pinned, hpinned, hid⟩, hunchanged⟩ := check_refresh_ok_iff.mp h
  constructor
  · rintro hcontinues ⟨pinned, hpinned, entry, hentry, hid, hkey⟩
    exact hkey (hcontinues.unchanged pinned hpinned entry hentry hid)
  intro hnot
  refine ⟨⟨pinned, hpinned, ?_⟩, fun pinned hpinned entry hentry hid => ?_⟩
  case refine_2 =>
    by_contra hkey
    exact hnot ⟨pinned, hpinned, entry, hentry, hid, hkey⟩
  cases hlast : last_key bundle.keys pinned.key_id with
  | none => exact absurd hid (last_key_eq_none_iff.mp hlast)
  | some public_key =>
    have hmem := mem_of_last_key hlast
    rwa [hunchanged pinned hpinned public_key hlast] at hmem

/-- A refresh is atomic exactly when it does not write a bundle that passes
the checks and spoils the pinned set. -/
theorem refresh_atomic_iff (libraries : Libraries) (response : Except String SigningPubkeyBundle) (writable : Bool)
    (self : Holder) : RefreshAtomic libraries response writable self ↔
      ¬ (writable ∧ ∃ bundle, response = .ok bundle ∧ Spoils libraries self bundle) := by
  have hunfold := @Holder.refresh_signing_keys.eq_def libraries response writable self
  rw [RefreshAtomic]
  cases hfetched : fetched_bundle response with
  | error e =>
    simp only [hfetched] at hunfold
    rw [hunfold]
    refine iff_of_true ⟨rfl, rfl, rfl⟩ ?_
    rintro ⟨-, bundle, hresponse, hspoils⟩
    rw [fetched_bundle_ok_iff.mpr ⟨hresponse, hspoils.active⟩] at hfetched
    cases hfetched
  | ok bundle =>
    obtain ⟨hresponse, hactive⟩ := fetched_bundle_ok_iff.mp hfetched
    have hsame {other : SigningPubkeyBundle} (h : response = .ok other) : bundle = other :=
      Except.ok.inj (hresponse.symm.trans h)
    simp only [hfetched] at hunfold
    cases hcheck : check_refresh self.identity bundle with
    | error e =>
      simp only [hcheck] at hunfold
      rw [hunfold]
      refine iff_of_true ⟨rfl, rfl, rfl⟩ ?_
      rintro ⟨-, other, hother, hspoils⟩
      obtain rfl := hsame hother
      rw [check_refresh_ok_iff.mpr ⟨hspoils.overlap, hspoils.unchanged⟩] at hcheck
      cases hcheck
    | ok u =>
      obtain ⟨hoverlap, hunchanged⟩ := check_refresh_ok_iff.mp hcheck
      simp only [hcheck] at hunfold
      cases writable with
      | false =>
        simp only [Bool.false_eq_true, if_false] at hunfold
        rw [hunfold]
        exact iff_of_true ⟨rfl, rfl, rfl⟩ (by simp)
      | true =>
        have husable := @verifier_set_isOk_iff libraries (self.identity.pin bundle)
        simp only [if_true] at hunfold
        cases hset : verifier_set libraries (self.identity.pin bundle) with
        | ok verifiers =>
          simp only [hset] at hunfold
          rw [hset] at husable
          rw [hunfold]
          refine (continues_iff_of_checks hcheck).trans (not_congr ⟨fun hreplaces => ?_, ?_⟩)
          · exact ⟨rfl, bundle, hresponse, hactive, hoverlap, hunchanged, .inr ⟨husable.mp rfl, hreplaces⟩⟩
          · rintro ⟨-, other, hother, hspoils⟩
            obtain rfl := hsame hother
            obtain ⟨⟨entry, hentry, hunusable⟩, -⟩ | ⟨-, hreplaces⟩ := hspoils.breaks
            · exact absurd (husable.mp rfl entry hentry) hunusable
            · exact hreplaces
        | error e =>
          simp only [hset] at hunfold
          rw [hset] at husable
          have hunusable : ∃ entry ∈ bundle.keys, ¬ usable libraries entry := by
            by_contra hall
            push Not at hall
            exact Bool.false_ne_true (husable.mpr hall)
          rw [hunfold]
          constructor
          · rintro ⟨-, -, hfile⟩ ⟨-, other, hother, hspoils⟩
            obtain rfl := hsame hother
            obtain ⟨-, hdiffers⟩ | ⟨hall, -⟩ := hspoils.breaks
            · exact hdiffers hfile.symm
            · obtain ⟨entry, hentry, hfails⟩ := hunusable
              exact hfails (hall entry hentry)
          · intro hnot
            refine ⟨rfl, rfl, ?_⟩
            by_contra hfile
            exact hnot ⟨rfl, bundle, hresponse, hactive, hoverlap, hunchanged, .inl ⟨hunusable, Ne.symm hfile⟩⟩

/-- base64 with keys that are all on the curve. -/
def plain_libraries : Libraries where
  decode := base64.decode
  valid_key _ := true
  parse _ := none

def zero_key : ServerPubkey := ⟨"2024", "AAAAAAAAAAAAAAAAAAAAAAAAAAAAAAAAAAAAAAAAAAA="⟩

/-- An agent that has pinned one key. -/
def pinned_agent : Holder where
  file := some ⟨"agent", "token", "https://control-plane", "", [zero_key], some "2024", some zero_key.public_key, none⟩
  identity := ⟨"agent", "token", "https://control-plane", "", [zero_key], some "2024", some zero_key.public_key, none⟩
  verifiers key_id := if key_id = "2024" then some (List.replicate 32 0) else none

/-- With a second key that is cut short the refresh fails, after it has replaced the file. -/
theorem truncated_key_is_persisted :
    ¬ RefreshAtomic plain_libraries (.ok ⟨"2024", [zero_key, ⟨"2025", "AAAA"⟩]⟩) true pinned_agent := by
  intro hatomic
  have hfailed : (pinned_agent.refresh_signing_keys plain_libraries (.ok ⟨"2024", [zero_key, ⟨"2025", "AAAA"⟩]⟩) true) =
      (.error "pubkey for 2025 is 3 bytes, expected 32", _) := rfl
  rw [RefreshAtomic, hfailed] at hatomic
  exact absurd (congrArg (Option.map fun identity => identity.server_pubkeys.length) hatomic.2.2) (by decide)

end Refresh

end iac_agent.remote
