import Iac.Providers.File.Atomic

open iac_core iac_core.executor posix posix.Kernel serde_json Script

namespace iac_providers.file

section Octal

variable {mode : Nat} {digits : List Char}

theorem ofDigitChars_dropWhile_zero {radix : Nat} (digits : List Char) :
    Nat.ofDigitChars radix (digits.dropWhile (· = '0')) 0 = Nat.ofDigitChars radix digits 0 := by
  induction digits with
  | nil => rfl
  | cons c digits ih =>
    by_cases hc : c = '0'
    · subst hc
      rw [List.dropWhile_cons_of_pos (by simp), ih, Nat.ofDigitChars_cons]
      simp
    · rw [List.dropWhile_cons_of_neg (by simpa using hc)]

theorem strip_octal_digits (h : digits.all (num.is_digit 8) = true) : strip_octal digits = digits := by
  rw [strip_octal.eq_def]
  split
  · next rest => simp [num.is_digit] at h
  · rfl

theorem from_str_radix_digits {radix bound : Nat} (h : digits.all (num.is_digit radix) = true) (hne : digits ≠ [])
    (hlt : Nat.ofDigitChars radix digits 0 < bound) :
    num.from_str_radix radix bound digits = some (Nat.ofDigitChars radix digits 0) := by
  have hplus : digits.head? ≠ some '+' := by
    intro hhead
    obtain ⟨rest, rfl⟩ := List.head?_eq_some_iff.mp hhead
    simp [num.is_digit] at h
  have hempty : digits.isEmpty = false := by simp [hne]
  simp [num.from_str_radix, hplus, hempty, h, hlt]

theorem parse_mode_digits (h : digits.all (num.is_digit 8) = true) :
    (parse_mode digits).toOption = num.from_str_radix 8 num.u32_bound digits := by
  have htrim : str.trim digits = digits := by
    refine str.trim_eq_self fun c hc => str.not_whitespace_of_digit ?_
    have hdigit := List.all_eq_true.mp h c hc
    simp only [num.is_digit, Bool.and_eq_true] at hdigit
    exact hdigit.1
  rw [parse_mode, htrim, strip_octal_digits h]
  cases num.from_str_radix 8 num.u32_bound digits <;> rfl

/-- A mode is read back from its text; what is left of the text of no mode is no number. -/
theorem parse_octal_octal (h : mode < num.u32_bound) : parse_octal (octal mode) = if mode = 0 then none else some mode := by
  have htext : (octal mode).toList = '0' :: Nat.toDigits 8 mode := String.toList_ofList
  have hvalue : Nat.ofDigitChars 8 ((octal mode).toList.dropWhile (· = '0')) 0 = mode := by
    rw [ofDigitChars_dropWhile_zero, htext, Nat.ofDigitChars_cons]
    simpa using Nat.ofDigitChars_toDigits (b := 8) (n := mode) (by decide) (by decide)
  have hdigits : ((octal mode).toList.dropWhile (· = '0')).all (num.is_digit 8) = true := by
    refine List.all_eq_true.mpr fun c hc => ?_
    have hmem := (List.dropWhile_sublist _).subset hc
    rw [htext] at hmem
    obtain rfl | hdigit := List.mem_cons.mp hmem
    · rfl
    · exact List.all_eq_true.mp (num.toDigits_digits (by decide) (by decide)) c hdigit
  rw [parse_octal, parse_mode_digits hdigits]
  split_ifs with hzero
  · subst hzero
    decide
  · rw [from_str_radix_digits hdigits ?_ (hvalue.symm ▸ h), hvalue]
    intro hnil
    rw [hnil] at hvalue
    exact hzero hvalue.symm

theorem as_u32_of_u32 (n : UInt32) : as_u32 (of_u32 n) = some n := by
  have hlt : n.toNat < num.u32_bound := n.toNat_lt
  rw [of_u32, of_nat, as_u32, if_pos hlt, UInt32.ofNat_toNat]

end Octal

section Observing

variable {k : Kernel} {sha256_hex : List UInt8 → String} {spec : FileSpec} {tree : Tree}

theorem ensures_observe_none (hnone : tree spec.path.toList = none) :
    (observe k sha256_hex spec).Ensures (· = tree) (fun result after => after = tree ∧
      ∀ observed, result = .ok observed → observed.present = false) tree := by
  rw [observe, lstat]
  refine ensures_look_bind (fun e _ => ?_) fun entry hentry => ?_
  · cases e with
    | NotFound => exact ⟨rfl, rfl, fun observed hobserved => (Except.ok.inj hobserved) ▸ rfl⟩
    | Other text => exact ⟨rfl, rfl, fun _ hresult => by cases hresult⟩
  · rw [hnone] at hentry
    cases hentry

theorem ensures_observe_regular {file : Regular} (hfile : tree spec.path.toList = some (.regular file)) :
    (observe k sha256_hex spec).Ensures (· = tree) (fun result after => after = tree ∧
      ∀ observed, result = .ok observed → observed.present = true ∧ observed.facts = facts_of sha256_hex file) tree := by
  rw [observe, lstat]
  refine ensures_look_bind (fun e he => ?_) fun entry hentry => ?_
  · cases e with
    | NotFound => exact absurd (hfile.symm.trans (lstat_not_found he)) (by simp)
    | Other text => exact ⟨rfl, rfl, fun _ hresult => by cases hresult⟩
  · obtain rfl := Option.some.inj ((lstat_found hentry).symm.trans hfile)
    refine ensures_checked_look rfl (fun e => ⟨rfl, fun _ hresult => by cases hresult⟩) fun opened hopened => ?_
    rw [hfile] at hopened
    obtain rfl := Except.ok.inj hopened
    exact ⟨rfl, rfl, fun observed hobserved => (Except.ok.inj hobserved) ▸ ⟨rfl, rfl⟩⟩

/-- A verification matches where the diff of what is observed is no change. -/
theorem ensures_verify {P : ObservedState → Prop} (hobserve : (observe k sha256_hex spec).Ensures (· = tree)
      (fun result after => after = tree ∧ ∀ observed, result = .ok observed → P observed) tree) :
    (verify k sha256_hex spec).Ensures (· = tree) (fun result _ => ∀ outcome, result = .ok outcome →
      ∃ observed, P observed ∧ (outcome = .Match ↔ (diff k sha256_hex tree spec observed).is_change = false)) tree := by
  refine ensures_bind (hobserve.imp (fun _ h => h) ?_)
  rintro (e | observed) after ⟨rfl, hobserved⟩
  · intro outcome houtcome
    cases houtcome
  · have hP := hobserved observed rfl
    simp only [continued, ensures_get_bind]
    by_cases hchange : (diff k sha256_hex after spec observed).is_change = true
    · rw [if_pos hchange]
      refine ⟨rfl, fun outcome houtcome => ⟨observed, hP, ?_⟩⟩
      obtain rfl := Except.ok.inj houtcome
      simp [hchange]
    · rw [if_neg hchange]
      refine ⟨rfl, fun outcome houtcome => ⟨observed, hP, ?_⟩⟩
      obtain rfl := Except.ok.inj houtcome
      simp [hchange]

end Observing

section Settling

variable {k : Kernel} {sha256_hex : List UInt8 → String} {spec : FileSpec} {before after middle tree : Tree} {file : Regular}

/-- A name has the same id in two trees that have the same databases. -/
theorem resolve_id_agree {database noun label name : String} {id id' : UInt32}
    (hsame : after database.toList = middle database.toList) (h : resolve_id k database noun label middle name = .ok id)
    (h' : resolve_id k database noun label after name = .ok id') : id' = id := by
  rw [resolve_id] at h h'
  cases hnumber : num.from_str_radix 10 num.u32_bound name.toList with
  | some n =>
    rw [hnumber] at h h'
    exact (Except.ok.inj h').symm.trans (Except.ok.inj h)
  | none =>
    rw [hnumber] at h h'
    obtain ⟨content, hcontent, h⟩ := fallible.bind_eq_ok_iff.mp h
    obtain ⟨content', hcontent', h'⟩ := fallible.bind_eq_ok_iff.mp h'
    have hread : content' = content := by
      rw [read_to_string, hsame] at hcontent'
      rw [read_to_string] at hcontent
      cases hrefuses : k.refuses .openat database.toList middle with
      | some text => rw [hrefuses] at hcontent; cases hcontent
      | none =>
        cases hrefuses' : k.refuses .openat database.toList after with
        | some text => rw [hrefuses'] at hcontent'; cases hcontent'
        | none =>
          rw [hrefuses] at hcontent
          rw [hrefuses'] at hcontent'
          exact Except.ok.inj (hcontent'.symm.trans hcontent)
    subst hread
    exact Except.ok.inj (h'.symm.trans h)

/-- The mode of the spec is one that a file can have, and a change of the owner leaves it. -/
def mode_stays (k : Kernel) (spec : FileSpec) : Prop :=
  ∀ mode, spec.parsed_mode = some mode →
    (if spec.owner.isSome || spec.group.isSome then k.after_chown (mode_of mode) else mode_of mode : Fin 4096).val = mode

theorem Resolved.isSome_eq {resolve : String → Except String UInt32} {name : Option String} {id : Option UInt32}
    (h : Resolved resolve name id) : name.isSome = id.isSome := by
  have hmap := congrArg Option.isSome h
  rwa [Option.isSome_map, Option.isSome_map] at hmap

theorem Resolved.of_some {resolve : String → Except String UInt32} {name : String} {id : Option UInt32}
    (h : Resolved resolve (some name) id) : ∃ n, id = some n ∧ resolve name = .ok n := by
  cases id with
  | none => cases h
  | some n => exact ⟨n, rfl, Option.some.inj h⟩

/-- The name that the spec has, if any, is not one for the id that stands for none. -/
def id_given (resolve : String → Except String UInt32) (wanted : Option String) : Prop :=
  ∀ name, wanted = some name → resolve name ≠ .ok KEEP_ID

theorem id_finding_none_iff {field label : String} {resolve : String → Except String UInt32} {wanted : Option String}
    {facts : Value} : (id_finding field label resolve wanted facts).1 = none ↔
      ∀ name ∈ wanted, ∀ want, resolve name = .ok want → want = ((facts.get label).bind as_u32).getD 0 := by
  unfold id_finding
  cases wanted with
  | none => simp
  | some name =>
    cases hresolve : resolve name with
    | error e => simp [hresolve]
    | ok want => by_cases hsame : want = ((facts.get label).bind as_u32).getD 0 <;> simp [hresolve, hsame]

/-- A file that was given the id of the name differs from the spec only where that id stands for none. -/
theorem id_finding_iff_given {field label : String} {resolve resolve' : String → Except String UInt32} {wanted : Option String}
    {facts : Value} {given : Option UInt32} {id : OwnerId} (hgiven : Resolved resolve wanted given)
    (hfound : (facts.get label).bind as_u32 = some (owned_id given id).val)
    (hagree : ∀ name n want, resolve name = .ok n → resolve' name = .ok want → want = n) :
    (id_finding field label resolve' wanted facts).1 = none ↔ id_given resolve' wanted := by
  rw [id_finding_none_iff, hfound, Option.getD_some]
  constructor
  · rintro hsame name rfl hkeep
    obtain ⟨n, rfl, hn⟩ := hgiven.of_some
    have hn_keep : KEEP_ID = n := hagree name n KEEP_ID hn hkeep
    exact (owned_id (some n) id).2 (hsame name rfl KEEP_ID hkeep).symm
  · rintro hid name rfl want hwant
    obtain ⟨n, rfl, hn⟩ := hgiven.of_some
    obtain rfl := hagree name n want hn hwant
    refine (owned_id_eq_iff.mpr ?_).symm
    rintro rfl
    exact hid name rfl hwant

theorem content_finding_none {facts : Value}
    (hfound : (facts.get "content_sha256").bind Value.as_str = some (sha256_hex (bytes_of spec.content))) :
    (content_finding sha256_hex spec facts).1 = none := by
  rw [content_finding, hfound]
  cases hcontent : spec.content with
  | none => rfl
  | some want => simp [bytes_of]

theorem mode_finding_none_iff {facts : Value} {mode : Fin 4096}
    (hfound : (facts.get "mode").bind Value.as_str = some (octal mode)) :
    (mode_finding spec facts).1 = none ↔ ∀ want, spec.parsed_mode = some want → want = mode.val := by
  have hlt : mode.val < num.u32_bound := mode.isLt.trans (by decide)
  have hparsed : (parse_octal (octal mode)).getD 0 = mode.val := by
    rw [parse_octal_octal hlt]
    split_ifs with hzero
    · exact hzero.symm
    · rfl
  rw [mode_finding, hfound, Option.getD_some, hparsed]
  cases spec.parsed_mode with
  | none => simp
  | some want => by_cases hsame : want = mode.val <;> simp [hsame]

theorem facts_get (file : Regular) :
    (Value.object (facts_of sha256_hex file)).get "content_sha256" = some (.string (sha256_hex file.content)) ∧
    (Value.object (facts_of sha256_hex file)).get "mode" = some (.string (octal file.mode)) ∧
    (Value.object (facts_of sha256_hex file)).get "uid" = some (of_u32 file.uid) ∧
      (Value.object (facts_of sha256_hex file)).get "gid" = some (of_u32 file.gid) := by
  simp [Value.get, facts_of]

theorem written_mode {content : List UInt8} {mode : Option Nat} {uid gid : Option UInt32} :
    (written k content mode uid gid).mode = if uid.isSome || gid.isSome
      then k.after_chown ((mode.map mode_of).getD (mode_of 0o600)) else (mode.map mode_of).getD (mode_of 0o600) := by
  rw [written, chowned]
  split_ifs <;> rfl

theorem written_uid {content : List UInt8} {mode : Option Nat} {uid gid : Option UInt32} :
    (written k content mode uid gid).uid = owned_id uid k.uid := by
  rw [written, chowned]
  split_ifs with hgiven
  · rfl
  · cases uid with
    | none => rfl
    | some id => simp at hgiven

theorem written_gid {content : List UInt8} {mode : Option Nat} {uid gid : Option UInt32} :
    (written k content mode uid gid).gid = owned_id gid k.gid := by
  rw [written, chowned]
  split_ifs with hgiven
  · rfl
  · cases gid with
    | none => rfl
    | some id => simp at hgiven

theorem written_content {content : List UInt8} {mode : Option Nat} {uid gid : Option UInt32} :
    (written k content mode uid gid).content = content := by
  rw [written, chowned]
  split_ifs <;> rfl

/-- The owner and the group that the spec has are not those that `chown` leaves as they are. -/
def owners_given (k : Kernel) (tree : Tree) (spec : FileSpec) : Prop :=
  id_given (resolve_uid k tree) spec.owner ∧ id_given (resolve_gid k tree) spec.group

/-- A file as a write leaves it shows no change, save for a mode that no file keeps and
for an owner that no file has. -/
theorem diff_of_wrote (hstate : spec.state = .Present) (hdatabases : spec.path ≠ "/etc/passwd" ∧ spec.path ≠ "/etc/group")
    (hwrote : Wrote k spec before after) : ∃ file, after spec.path.toList = some (.regular file) ∧
      ∀ observed : ObservedState, observed.present = true → observed.facts = facts_of sha256_hex file →
        ((diff k sha256_hex after spec observed).is_change = false ↔ mode_stays k spec ∧ owners_given k after spec) := by
  obtain ⟨-, middle, uid, gid, -, huid, hgid, hfile, -, hsame⟩ := hwrote
  refine ⟨_, hfile, fun observed hpresent hfacts => ?_⟩
  obtain ⟨hsha, hmode, huid_fact, hgid_fact⟩ :=
    @facts_get sha256_hex (written k (bytes_of spec.content) spec.parsed_mode uid gid)
  rw [← hfacts] at hsha hmode huid_fact hgid_fact
  have hpasswd : after "/etc/passwd".toList = middle "/etc/passwd".toList :=
    hsame _ fun h => hdatabases.1 (String.toList_injective h.symm)
  have hgroup : after "/etc/group".toList = middle "/etc/group".toList :=
    hsame _ fun h => hdatabases.2 (String.toList_injective h.symm)
  have hcontent : (content_finding sha256_hex spec (.object observed.facts)).1 = none :=
    content_finding_none (by rw [hsha, written_content]; rfl)
  have howner : (owner_finding k after spec (.object observed.facts)).1 = none ↔ id_given (resolve_uid k after) spec.owner := by
    have hfound : ((Value.object observed.facts).get "uid").bind as_u32 = some (owned_id uid k.uid).val := by
      rw [huid_fact, Option.bind_some, as_u32_of_u32, written_uid]
    exact id_finding_iff_given huid hfound fun _ _ _ => resolve_id_agree hpasswd
  have hgroup_iff : (group_finding k after spec (.object observed.facts)).1 = none ↔
      id_given (resolve_gid k after) spec.group := by
    have hfound : ((Value.object observed.facts).get "gid").bind as_u32 = some (owned_id gid k.gid).val := by
      rw [hgid_fact, Option.bind_some, as_u32_of_u32, written_gid]
    exact id_finding_iff_given hgid hfound fun _ _ _ => resolve_id_agree hgroup
  have hmode_iff : (mode_finding spec (.object observed.facts)).1 = none ↔ mode_stays k spec := by
    rw [mode_finding_none_iff (by rw [hmode]; rfl), mode_stays, written_mode, ← huid.isSome_eq, ← hgid.isSome_eq]
    refine forall₂_congr fun want hwant => ?_
    rw [hwant, Option.map_some, Option.getD_some, eq_comm]
  rw [diff, hstate, hpresent, owners_given, ← hmode_iff, ← howner, ← hgroup_iff]
  simp only [findings, List.filterMap_cons, List.filterMap_nil, hcontent]
  cases (mode_finding spec (.object observed.facts)).1 with
  | some change => simp [Diff.is_change]
  | none =>
    cases (owner_finding k after spec (.object observed.facts)).1 with
    | some change => simp [Diff.is_change]
    | none => cases (group_finding k after spec (.object observed.facts)).1 <;> simp [Diff.is_change, Diff.no_change]

theorem ensures_delete {p : Path} {I : Tree → Prop} (htree : I tree) (hgone : ∀ after, after p = none → I after) :
    (delete k p).Ensures I (fun result after => ∀ r, result = .ok r → after p = none) tree := by
  rw [delete, unlink]
  refine ensures_change_bind htree (fun e he => ?_) fun after hafter => ?_
  · cases e with
    | Other text => exact ⟨htree, fun _ hresult => by cases hresult⟩
    | NotFound => exact ⟨htree, fun _ _ => removed_not_found he⟩
  · obtain rfl := removed_ok hafter
    have hnone : Function.update tree p none p = none := Function.update_self ..
    exact ⟨hgone _ hnone, fun _ _ => hnone⟩

/-- A step that is planned for any observation writes a file that should be present and deletes one that should be absent. -/
theorem action_of_planned {id : Ulid} {diff : Diff} {step : Step} (hdiff : diff.kind ≠ .Delete)
    (hstep : step ∈ plan id spec diff) :
    FileAction.parse step.action = .ok (if spec.state = .Present then .Write else .Delete) := by
  unfold plan at hstep
  cases hkind : diff.kind with
  | Delete => exact absurd hkind hdiff
  | NoChange => simp [hkind] at hstep
  | Create | Update =>
    cases hstate : spec.state <;>
    · simp only [hkind, hstate, List.mem_singleton] at hstep
      subst hstep
      rfl

theorem diff_kind_ne_delete {observed : ObservedState} : (diff k sha256_hex tree spec observed).kind ≠ .Delete := by
  unfold diff
  cases spec.state <;> cases observed.present <;> simp [Diff.no_change]
  split <;> simp

/-- After a planned step has succeeded, a verification matches, unless the spec
asks for a mode that no file keeps, or for an owner that no file has. -/
theorem applied_step_settles {ulid id : Ulid} {planned after' : Tree} {observed : ObservedState} {step : Step} {r : StepResult}
    {outcome : VerifyOutcome} (hpath : Named spec.path.toList)
    (hdatabases : spec.path ≠ "/etc/passwd" ∧ spec.path ≠ "/etc/group")
    (hstep : step ∈ plan id spec (diff k sha256_hex planned spec observed))
    (happly : (apply k sha256_hex ulid spec step).run before = (.ok r, after))
    (hverify : (verify k sha256_hex spec).run after = (.ok outcome, after')) :
    outcome = .Match ↔ spec.state = .Absent ∨ mode_stays k spec ∧ owners_given k after spec := by
  rw [apply, action_of_planned diff_kind_ne_delete hstep] at happly
  cases hstate : spec.state with
  | Absent =>
    simp only [hstate, reduceCtorEq, ↓reduceIte] at happly
    have hdelete : (delete k spec.path.toList).Ensures (fun _ => True)
        (fun result after => ∀ r, result = .ok r → after spec.path.toList = none) before :=
      ensures_delete trivial fun _ _ => trivial
    have hdeleted := hdelete.run
    rw [happly] at hdeleted
    have hobserve : (observe k sha256_hex spec).Ensures (· = after) (fun result tree => tree = after ∧
        ∀ observed, result = .ok observed → observed.present = false) after := ensures_observe_none (hdeleted r rfl)
    have hdone := (ensures_verify hobserve).run
    rw [hverify] at hdone
    obtain ⟨observed, habsent, hmatch⟩ := hdone outcome rfl
    refine iff_of_true (hmatch.mpr ?_) (.inl rfl)
    rw [diff, hstate, habsent]
    rfl
  | Present =>
    simp only [hstate, ↓reduceIte] at happly
    have hwrite : (write k sha256_hex ulid spec).Ensures _ _ before := ensures_write sha256_hex ulid hpath
    have hwrote := hwrite.run
    rw [happly] at hwrote
    obtain ⟨file, hfile, hdiff⟩ := diff_of_wrote hstate hdatabases hwrote
    have hobserve : (observe k sha256_hex spec).Ensures (· = after) _ after := ensures_observe_regular hfile
    have hdone := (ensures_verify hobserve).run
    rw [hverify] at hdone
    obtain ⟨observed, ⟨hpresent, hfacts⟩, hmatch⟩ := hdone outcome rfl
    rw [hmatch, hdiff observed hpresent hfacts]
    simp

def motd : FileSpec where
  path := "/etc/motd"
  mode := some "0644"
  owner := some "0"
  content := some "hello"

/-- A kernel that refuses nothing and clears the set-id bits when the owner of a file changes. -/
def obliging : Kernel where
  refuses _ _ _ := none
  written := 0
  uid := .root
  gid := .root
  after_chown mode := mode_of (mode.val % 1024)

def only_root : Tree := fun p => if p = "/".toList ∨ p = "/etc".toList then some .directory else none

theorem motd_named : Named motd.path.toList := ⟨by decide, by decide⟩

def motd_step : Step := Step.new 0 "file.write" "write /etc/motd" (json [("path", .string "/etc/motd")])

/-- The tree after the step. -/
def with_motd : Tree := ((apply obliging (fun _ => "2cf24dba") 0 motd motd_step).run only_root).2

theorem motd_settles : ∃ outcome, (verify obliging (fun _ => "2cf24dba") motd).run with_motd = (.ok outcome, with_motd) ∧
    (outcome = .Match ↔ motd.state = .Absent ∨ mode_stays obliging motd ∧ owners_given obliging with_motd motd) := by
  have hstep : motd_step ∈ plan 0 motd (diff obliging (fun _ => "2cf24dba") only_root motd ⟨false, .null, []⟩) :=
    List.mem_singleton_self _
  have happly : (apply obliging (fun _ => "2cf24dba") 0 motd motd_step).run only_root = (.ok _, with_motd) := rfl
  exact ⟨_, rfl, applied_step_settles motd_named (by decide) hstep happly rfl⟩

end Settling

section Restoring

variable {k : Kernel} {p workspace dir : Path} {ulid : Ulid} {before saved later tree base : Tree} {data : Value}
  {file : Regular} {α : Type} {I : Tree → Prop} {Q : Except Error α → Tree → Prop}

/-- Where the copy of a file is kept. -/
def backup_path (workspace : Path) : Path := path.join workspace BACKUP_FILENAME

/-- What stands at a path that can be backed up: a regular file, or nothing. -/
def Original (entry : Option Entry) (original : Option Regular) : Prop := entry = original.map .regular

/-- The workspace holds the content and the mode of the file that was there. -/
def Copied (workspace : Path) (original : Option Regular) (tree : Tree) : Prop :=
  ∀ file, original = some file → ∃ copy, tree (backup_path workspace) = some (.regular copy) ∧
    copy.content = file.content ∧ copy.mode = file.mode

theorem ensures_checked_copy {target : Path} {wrap : Errno → Error} {next : Unit → Script Tree Error α}
    (hfile : tree p = some (.regular file)) (hne : p ≠ target)
    (hkeep : ∀ t, (∀ q, q ≠ target → t q = tree q) → I t ∧ ∀ e, Q (.error e) t) (hok : ∀ copy : Regular,
      copy.content = file.content → copy.mode = file.mode → (next ()).Ensures I Q (with_file tree target copy)) :
    (checked wrap (k.copy p target) >>= next).Ensures I Q tree := by
  obtain ⟨hI, herror⟩ := hkeep tree fun _ _ => rfl
  refine ensures_checked_bind ?_
  rw [copy, bind_assoc]
  refine ensures_look_bind (fun e _ => ⟨hI, herror _⟩) fun opened hopened => ?_
  rw [hfile] at hopened
  obtain rfl := Except.ok.inj hopened
  simp only [bind_assoc]
  refine ensures_change_bind hI (fun e _ => ⟨hI, herror _⟩) fun tree' htruncated => ?_
  have hempty : ∃ empty : Regular, tree' = with_file tree target empty ∧ empty.mode = file.mode := by
    rw [truncate] at htruncated
    split at htruncated
    · obtain rfl := Except.ok.inj htruncated
      exact ⟨_, rfl, rfl⟩
    · obtain rfl := Except.ok.inj htruncated
      exact ⟨_, rfl, rfl⟩
    · cases htruncated
  obtain ⟨empty, rfl, hmode⟩ := hempty
  have hkept (copy : Regular) : I (with_file tree target copy) ∧ ∀ e, Q (.error e) (with_file tree target copy) :=
    hkeep _ fun q hq => Function.update_of_ne hq _ _
  simp only [bind_assoc]
  refine ensures_look_bind (fun e _ => ⟨(hkept empty).1, (hkept empty).2 _⟩) fun opened hopened => ?_
  rw [show with_file tree target empty p = tree p from Function.update_of_ne hne _ _, hfile] at hopened
  obtain rfl := Except.ok.inj hopened
  refine ensures_write_all_bind (Function.update_self ..) (hkept empty).1 (fun e => ⟨(hkept empty).1, (hkept empty).2 _⟩)
    (fun part => ?_) ?_
  · rw [with_content_with_file]
    exact ⟨(hkept _).1, fun e => ⟨(hkept _).1, (hkept _).2 _⟩⟩
  · rw [with_content_with_file]
    exact hok _ rfl hmode

theorem ensures_backup (hne : backup_path workspace ≠ p) :
    (backup k p workspace).Ensures (fun _ => True) (fun result saved => ∀ data, result = .ok data →
      ∃ original, Original (before p) original ∧ data = checkpoint p original ∧ Copied workspace original saved) before := by
  have hfailed {e : Error} {P : Value → Prop} : ∀ data, (Except.error e : Except Error Value) = .ok data → P data :=
    fun _ hdata => by cases hdata
  rw [backup]
  refine ensures_checked_make_dirs (List.Subset.refl _) (Grown.refl _ before) (fun _ _ => ⟨trivial, fun _ => hfailed⟩)
    fun middle hgrown => ?_
  have hbefore {entry : Option Entry} (hentry : middle p = entry) (hdir : entry ≠ some .directory) : before p = entry := by
    obtain hsame | ⟨-, -, hmade⟩ := hgrown p
    · exact hsame.symm.trans hentry
    · exact absurd (hentry.symm.trans hmade) hdir
  rw [lstat]
  refine ensures_look_bind (fun e he => ?_) fun entry hentry => ?_
  · cases e with
    | NotFound =>
      refine ⟨trivial, fun data hdata => ⟨none, hbefore (lstat_not_found he) (by simp), (Except.ok.inj hdata).symm, ?_⟩⟩
      rintro file ⟨⟩
    | Other text => exact ⟨trivial, hfailed⟩
  · cases entry with
    | regular file =>
      refine ensures_checked_copy (lstat_found hentry) hne.symm (fun _ _ => ⟨trivial, fun _ => hfailed⟩)
        fun copy hcontent hmode => ?_
      refine ⟨trivial, fun data hdata => ⟨some file, hbefore (lstat_found hentry) (by simp), (Except.ok.inj hdata).symm, ?_⟩⟩
      rintro file' hfile'
      obtain rfl := Option.some.inj hfile'
      exact ⟨copy, Function.update_self .., hcontent, hmode⟩
    | directory => exact ⟨trivial, hfailed⟩
    | symlink => exact ⟨trivial, hfailed⟩
    | other => exact ⟨trivial, hfailed⟩

/-- The kernel refuses no change of a mode and no change of an owner. -/
def Obliges (k : Kernel) : Prop := ∀ p tree, k.refuses .chmod p tree = none ∧ k.refuses .chown p tree = none

/-- What stands at the path again: nothing, or a file with the content, and with
the attributes as far as they could be set; a change of the owner comes last. -/
def PutBack (k : Kernel) : Option Regular → Option Entry → Prop
  | none, entry => entry = none
  | some file, entry => ∃ restored, entry = some (.regular restored) ∧ restored.content = file.content ∧
      (Obliges k → restored = k.owned (some file.uid.val) (some file.gid.val) file)

/-- The rollback has been made, and touches nothing else but the new file and
the directories above it that were missing. -/
def Restored (k : Kernel) (p : Path) (ulid : Ulid) (original : Option Regular) (later after : Tree) : Prop :=
  PutBack k original (after p) ∧ ∀ q, q ≠ p → q ≠ tmp_path p ulid → after q = later q ∨
    q ∈ ancestors ((parent p).getD []) ∧ later q = none ∧ after q = some .directory

theorem checkpoint_fields {original : Option Regular} (hdata : data = checkpoint p original) :
    (data.get "path").bind Value.as_str = some (String.ofList p) ∧
      (data.get "existed").bind as_bool = some original.isSome := by
  subst hdata
  cases original <;> simp [checkpoint, Value.get_json, Value.as_str, as_bool]

theorem checkpoint_attributes (hdata : data = checkpoint p (some file)) :
    ((data.get "mode").bind Value.as_str).bind parse_octal = (if file.mode = 0 then none else some file.mode.val) ∧
      (data.get "uid").bind as_u32 = some file.uid.val ∧ (data.get "gid").bind as_u32 = some file.gid.val ∧
      (data.get "backup").bind Value.as_str = some (String.ofList BACKUP_FILENAME) := by
  subst hdata
  have hlt : file.mode.val < num.u32_bound := file.mode.isLt.trans (by decide)
  have hzero : file.mode.val = 0 ↔ file.mode = 0 := Fin.val_eq_zero_iff
  refine ⟨?_, ?_, ?_, ?_⟩
  · simp [checkpoint, Value.get_json, Value.as_str, parse_octal_octal hlt, hzero]
  · simp [checkpoint, Value.get_json, as_u32_of_u32]
  · simp [checkpoint, Value.get_json, as_u32_of_u32]
  · simp [checkpoint, Value.get_json, Value.as_str]

theorem ensures_ignored {tmp : Path} {call : Call} {f : Regular → Regular} {copy : Regular} {next : Script Tree Error α}
    (hkeep : ∀ file, I (with_file base tmp file))
    (hok : ∀ changed, (changed = f copy ∨ changed = copy ∧ k.refuses call tmp (with_file base tmp copy) ≠ none) →
      next.Ensures I Q (with_file base tmp changed)) :
    (k.change call tmp (on_file tmp f) >>= fun _ => next).Ensures I Q (with_file base tmp copy) := by
  refine ensures_change_bind (hkeep copy) (fun e he => hok copy ?_) fun tree' htree' => ?_
  · obtain hforbids | ⟨text, hrefuses, -⟩ := he
    · rw [on_with_file] at hforbids
      cases hforbids
    · exact .inr ⟨rfl, by simp [hrefuses]⟩
  · obtain rfl := Except.ok.inj ((on_with_file f copy).symm.trans htree')
    exact hok _ (.inl rfl)

theorem owned_congr {copy : Regular} {uid gid : OwnerId} (hcontent : copy.content = file.content)
    (hmode : copy.mode = file.mode) :
    k.owned (some uid.val) (some gid.val) copy = k.owned (some uid.val) (some gid.val) file := by
  simp only [owned, owned_id_self, hcontent, hmode]

/-- What is put back of the attributes depends on what the kernel refuses; the content stays. -/
theorem ensures_put_back {tmp : Path} {copy : Regular} {next : Unit → Script Tree Error α}
    (hdata : data = checkpoint p (some file)) (hcontent : copy.content = file.content) (hmode : copy.mode = file.mode)
    (hkeep : ∀ file, I (with_file base tmp file)) (hok : ∀ restored : Regular, restored.content = file.content →
      (Obliges k → restored = k.owned (some file.uid.val) (some file.gid.val) file) →
      (next ()).Ensures I Q (with_file base tmp restored)) :
    (put_back k tmp data >>= next).Ensures I Q (with_file base tmp copy) := by
  obtain ⟨hmode_field, huid, hgid, -⟩ := checkpoint_attributes hdata
  have hchown {copy : Regular} (hcontent : copy.content = file.content) (hmode : Obliges k → copy.mode = file.mode) :
      (k.chown tmp (some file.uid.val) (some file.gid.val) >>= fun _ => next ()).Ensures I Q (with_file base tmp copy) := by
    refine ensures_ignored hkeep fun changed hchanged => ?_
    obtain rfl | ⟨rfl, hrefused⟩ := hchanged
    · exact hok _ hcontent fun hobliges => owned_congr hcontent (hmode hobliges)
    · exact hok _ hcontent fun hobliges => absurd (hobliges tmp _).2 hrefused
  unfold put_back
  rw [hmode_field, huid, hgid]
  by_cases hzero : file.mode = 0
  · rw [if_pos hzero]
    simp only [Option.isSome_some, Bool.or_self, ↓reduceIte, bind_assoc, pure_bind]
    exact hchown hcontent fun _ => hmode
  · rw [if_neg hzero]
    simp only [Option.isSome_some, Bool.or_self, ↓reduceIte, bind_assoc, pure_bind]
    refine ensures_ignored hkeep fun changed hchanged => ?_
    obtain rfl | ⟨rfl, -⟩ := hchanged
    · refine hchown ?_ fun _ => ?_
      · exact hcontent
      · exact Fin.ofNat_val_eq_self ..
    · exact hchown hcontent fun _ => hmode

/-- A rollback is atomic too. -/
theorem ensures_restore {original : Option Regular} (hpath : Named p) (hdata : data = checkpoint p original)
    (hcopied : Copied workspace original later) (htmp : backup_path workspace ≠ tmp_path p ulid) :
    (restore k ulid p data workspace).Ensures
      (fun after => Kept p ulid later after ∨ Restored k p ulid original later after)
      (all_or_nothing (Restored k p ulid original later) (Kept p ulid later)) later := by
  obtain ⟨hstored, hexisted⟩ := checkpoint_fields hdata
  have hself : Kept p ulid later later := fun _ _ => .inl rfl
  have hsame : ((some (String.ofList p)).any fun stored => stored.toList != p) = false := by simp
  rw [restore, hstored, hexisted, hsame, if_neg Bool.false_ne_true]
  cases original with
  | none =>
    rw [if_pos (by rfl), unlink]
    refine ensures_change_bind (.inl hself) (fun e he => ?_) fun after hafter => ?_
    · cases e with
      | Other text => exact ⟨.inl hself, hself⟩
      | NotFound =>
        have hdone : Restored k p ulid none later later := ⟨removed_not_found he, fun _ _ _ => .inl rfl⟩
        exact ⟨.inl hself, hdone⟩
    · obtain rfl := removed_ok hafter
      have hdone : Restored k p ulid none later (Function.update later p none) :=
        ⟨Function.update_self .., fun q hq _ => .inl (Function.update_of_ne hq _ _)⟩
      exact ⟨.inr hdone, hdone⟩
  | some file =>
    obtain ⟨copy, hcopy, hcontent, hmode⟩ := hcopied file rfl
    obtain ⟨-, -, -, hname⟩ := checkpoint_attributes hdata
    have hescapes : escapes BACKUP_FILENAME = false := by decide
    rw [if_neg (by simp), hname]
    simp only [Option.map_some, Option.getD_some, String.toList_ofList, hescapes, Bool.false_eq_true, ↓reduceIte]
    have hthere : (later (path.join workspace BACKUP_FILENAME)).isNone = false := by
      rw [← backup_path, hcopy]
      rfl
    have hdir := hpath.parent_eq
    have hgetD : (parent p).getD [] = path.render (path.resolve p).dropLast := by rw [hdir, Option.getD_some]
    have htmp_eq : path.join (path.render (path.resolve p).dropLast) (tmp_name ((file_name p).getD "tmp".toList) ulid) =
        tmp_path p ulid := by
      rw [tmp_path, hgetD, hpath.file_name_eq, Option.getD_some, Option.getD_some]
    rw [ensures_get_bind, hthere, if_neg Bool.false_ne_true, hdir]
    simp only [htmp_eq]
    have hkept {middle after : Tree} (hgrown : Grown (ancestors (path.render (path.resolve p).dropLast)) later middle)
        (hsame : ∀ q, q ≠ tmp_path p ulid → after q = middle q) : Kept p ulid later after := by
      intro q hq
      rw [hsame q hq, hgetD]
      exact hgrown q
    refine ensures_ensure_dir (fun middle hgrown => ?_) fun middle hgrown => ?_
    · have hmiddle := hkept hgrown fun _ _ => rfl
      exact ⟨.inl hmiddle, fun _ => hmiddle⟩
    have hfile : middle (path.join workspace BACKUP_FILENAME) = some (.regular copy) := by
      obtain hsame | ⟨-, hnone, -⟩ := hgrown (path.join workspace BACKUP_FILENAME)
      · exact hsame.trans hcopy
      · exact absurd (hnone.symm.trans hcopy) (by simp)
    have hnew (file : Regular) : Kept p ulid later (with_file middle (tmp_path p ulid) file) :=
      hkept hgrown fun q hq => Function.update_of_ne hq _ _
    refine ensures_checked_copy hfile htmp (fun t ht => ?_) fun new hnew_content hnew_mode => ?_
    · have ht' := hkept hgrown ht
      exact ⟨.inl ht', fun _ => ht'⟩
    refine ensures_put_back hdata (hnew_content.trans hcontent) (hnew_mode.trans hmode) (fun file => .inl (hnew file))
      fun restored hrestored hattributes => ?_
    refine ensures_checked_change (.inl (hnew restored)) (fun _ => hnew restored) fun after hrenamed => ?_
    obtain rfl := moved_ok (Function.update_self ..) hrenamed
    have hdone : Restored k p ulid (some file) later (Function.update (Function.update
        (with_file middle (tmp_path p ulid) restored) (tmp_path p ulid) none) p (some (.regular restored))) := by
      refine ⟨⟨restored, Function.update_self .., hrestored, hattributes⟩, fun q hq hne => ?_⟩
      rw [Function.update_of_ne hq, Function.update_of_ne hne, with_file, Function.update_of_ne hne, hgetD]
      exact hgrown q
    exact ⟨.inr hdone, hdone⟩

/-- A resource whose spec cannot be read is rolled back by the path of the checkpoint. -/
theorem rollback_eq {resource : Resource} {original : Option Regular} (hdata : data = checkpoint p original)
    (hresource : ∀ spec, parse_spec resource = .ok spec → spec.path.toList = p) :
    rollback k ulid resource data workspace = restore k ulid p data workspace := by
  obtain ⟨hstored, -⟩ := checkpoint_fields hdata
  rw [rollback, hstored]
  cases hspec : parse_spec resource with
  | error e => simp [Except.toOption]
  | ok spec => simp [Except.toOption, hresource spec hspec]

/-- Rolling back to a checkpoint puts back what stood at the path when the
checkpoint was made, whatever has happened to the host since, as long as the
copy is still there: the content always, and the attributes where the kernel
lets them be set. A rollback that fails or is interrupted before its end leaves
the path as it was. -/
theorem rollback_restores {k k' : Kernel} {resource : Resource} (hpath : Named p) (hbackup_ne : backup_path workspace ≠ p)
    (htmp_ne : backup_path workspace ≠ tmp_path p ulid) (hbackup : (backup k p workspace).run before = (.ok data, saved))
    (hcopy : later (backup_path workspace) = saved (backup_path workspace))
    (hresource : ∀ spec, parse_spec resource = .ok spec → spec.path.toList = p) (crash : Option Nat) :
    ∃ original, Original (before p) original ∧ Script.Atomic (Restored k' p ulid original later) (Kept p ulid later)
      ((rollback k' ulid resource data workspace).outcome crash later) := by
  have hsave : (backup k p workspace).Ensures _ _ before := ensures_backup hbackup_ne
  have hsaved := hsave.run
  rw [hbackup] at hsaved
  obtain ⟨original, horiginal, hdata, hcopied⟩ := hsaved data rfl
  have hcopied_later : Copied workspace original later := by
    intro file hfile
    rw [hcopy]
    exact hcopied file hfile
  rw [rollback_eq hdata hresource]
  exact ⟨original, horiginal, (ensures_restore hpath hdata hcopied_later htmp_ne).atomic crash⟩

def motd_workspace : Path := "/var/iac".toList

/-- The tree after the checkpoint. -/
def motd_saved : Tree := ((backup obliging motd.path.toList motd_workspace).run with_motd).2

def motd_checkpoint : Value :=
  checkpoint motd.path.toList (some (written obliging (bytes_of motd.content) motd.parsed_mode (some 0) none))

/-- The file has been deleted since. -/
def without_motd : Tree := Function.update motd_saved motd.path.toList none

def motd_resource : Resource where
  api_version := "iac.example/v1"
  kind := "file"
  name := "motd"
  environment := "prod"
  annotations := []
  spec := json [("path", .string "/etc/motd"), ("mode", .string "0644"), ("owner", .string "0"), ("content", .string "hello")]

theorem deleted_motd_is_put_back : ∃ original, Original (with_motd motd.path.toList) original ∧
    Script.Atomic (Restored obliging motd.path.toList 0 original without_motd) (Kept motd.path.toList 0 without_motd)
      ((rollback obliging 0 motd_resource motd_checkpoint motd_workspace).outcome none without_motd) := by
  have hne : backup_path motd_workspace ≠ motd.path.toList := by decide
  have htmp : backup_path motd_workspace ≠ tmp_path motd.path.toList 0 := by decide
  have hbackup : (backup obliging motd.path.toList motd_workspace).run with_motd = (.ok motd_checkpoint, motd_saved) := rfl
  have hspec : parse_spec motd_resource = .ok motd := rfl
  refine rollback_restores motd_named hne htmp hbackup (Function.update_of_ne hne _ _) (fun spec h => ?_) none
  obtain rfl := Except.ok.inj (hspec.symm.trans h)
  rfl

end Restoring

end iac_providers.file
