import Iac.Providers.Acme
import Mathlib.Logic.Function.Basic

open iac_core iac_core.executor serde_json effect transition

namespace iac_providers.acme

/-- A certificate directory with an ACME client: the files, when a certificate
expires, and what the calls have done. -/
structure CertDir (Host : Type) (cert_dir domain : List Char) where
  fs : FileSystem Host
  lego : List String → Option String → Prog Host Error Unit
  content : Host → Part → Option ByteArray
  not_after : ByteArray → Option Int
  exists_ok : ∀ part h, fs.path_exists (part.file cert_dir domain) h = (content h part).isSome
  read_ok : ∀ part h, fs.read (part.file cert_dir domain) h = content h part
  expiry_ok : ∀ h, fs.read_cert_expiry_unix (Part.Cert.file cert_dir domain) h = (content h .Cert).bind not_after
  create_keeps : ∀ h, content (perform (fs.create_dir_all cert_dir) h).2 = content h
  write_ok : ∀ {part bytes h h'}, perform (fs.write (part.file cert_dir domain) bytes) h = (.ok (), h') →
    content h' = Function.update (content h) part (some bytes)
  remove_keeps : ∀ {part other} h, other ≠ part → content (fs.remove_file (part.file cert_dir domain) h) other = content h other
  lego_keeps : ∀ spec action options h, content (perform (run_lego lego spec action options) h).2 .Expiry = content h .Expiry
  lego_ok : ∀ {spec action options h h'}, spec.cert_dir = cert_dir → spec.primary_domain = domain → action ≠ "revoke" →
    perform (run_lego lego spec action options) h = (.ok (), h') →
    (content h' .Cert).isSome = true ∧ (content h' .Key).isSome = true

namespace CertDir

variable {Host : Type} {cert_dir domain : List Char} (dir : CertDir Host cert_dir domain)

def ops : Ops Host AcmeCertSpec := acme.ops (LegoCli dir.lego dir.fs) dir.fs

/-- Both files are there or neither. -/
def Even (h : Host) : Prop := (dir.content h .Cert).isSome = (dir.content h .Key).isSome

/-- Only the pair of files is there, or nothing. -/
def Whole (h : Host) : Prop := dir.Even h ∧ dir.content h .Expiry = none

/-- The files can be removed. -/
def Clears (spec : AcmeCertSpec) (h : Host) : Prop :=
  dir.content (remove_pair dir.fs spec h) .Cert = none ∧ dir.content (remove_pair dir.fs spec h) .Key = none

/-- A client that fails leaves both files or neither, and what is revoked can be removed. -/
def Lands (spec : AcmeCertSpec) (h : Host) : AcmeAction → Prop
  | .Issue => ∀ e t, perform (issue dir.lego spec) h = (.error e, t) → dir.Even t
  | .Renew => ∀ e t, perform (renew dir.lego spec) h = (.error e, t) → dir.Even t
  | .Revoke => dir.Clears spec (perform (run_lego dir.lego spec "revoke" []) h).2

def fair {Act : Type} (act : Act → Host → Host) : Condition Host AcmeCertSpec Act where
  apply spec step _ h := ∀ action, AcmeAction.parse step.action = .ok action → dir.Lands spec h action
  rollback spec saved h :=
    if prior_present saved then ∃ t, perform (rollback dir.fs spec saved) h = (.ok (), t) else dir.Clears spec h
  outside a h := dir.Whole (act a h)

/-- The cycles of the specs of the directory and its domain. -/
def cycles {Act : Type} (act : Act → Host → Host) : Cycles Host AcmeCertSpec Act where
  ops := dir.ops
  admits spec := spec.cert_dir == cert_dir && spec.primary_domain == domain
  act := act

end CertDir

section Steps

variable {Host : Type} {cert_dir domain : List Char} {dir : CertDir Host cert_dir domain} {spec : AcmeCertSpec}
  {s t u : Host} {saved : Value}

/-- The spec is one of the directory and its domain. -/
structure AcmeCertSpec.Of (spec : AcmeCertSpec) (cert_dir domain : List Char) : Prop where
  dir : spec.cert_dir = cert_dir
  domain : spec.primary_domain = domain

theorem AcmeCertSpec.Of.file (h : spec.Of cert_dir domain) (part : Part) : spec.file part = part.file cert_dir domain := by
  rw [AcmeCertSpec.file, h.dir, h.domain]

theorem remove_pair_expiry (hof : spec.Of cert_dir domain) (h : Host) :
    dir.content (remove_pair dir.fs spec h) .Expiry = dir.content h .Expiry := by
  rw [remove_pair, AcmeCertSpec.key_file, AcmeCertSpec.cert_file, hof.file, hof.file, dir.remove_keeps _ (by decide),
    dir.remove_keeps _ (by decide)]

theorem whole_of_clears (hof : spec.Of cert_dir domain) (hexpiry : dir.content s .Expiry = none) (h : dir.Clears spec s) :
    dir.Whole (remove_pair dir.fs spec s) := by
  refine ⟨?_, (remove_pair_expiry hof s).trans hexpiry⟩
  rw [CertDir.Even, h.1, h.2]

theorem whole_of_lego (hof : spec.Of cert_dir domain) (hwhole : dir.Whole s) {action : String} {options : List String}
    (haction : action ≠ "revoke")
    (hfails : ∀ e t, perform (run_lego dir.lego spec action options) s = (.error e, t) → dir.Even t) :
    dir.Whole (perform (run_lego dir.lego spec action options) s).2 := by
  refine ⟨?_, (dir.lego_keeps ..).trans hwhole.2⟩
  rcases hrun : perform (run_lego dir.lego spec action options) s with ⟨e | ⟨⟩, t⟩
  · exact hfails e t hrun
  · obtain ⟨hcert, hkey⟩ := dir.lego_ok hof.dir hof.domain haction hrun
    exact hcert.trans hkey.symm

theorem whole_of_apply (hof : spec.Of cert_dir domain) (hwhole : dir.Whole s) {step : Step}
    (hlands : ∀ action, AcmeAction.parse step.action = .ok action → dir.Lands spec s action) :
    dir.Whole (perform (apply (LegoCli dir.lego dir.fs) spec step) s).2 := by
  unfold apply
  cases haction : AcmeAction.parse step.action with
  | error e => exact hwhole
  | ok action =>
    have hland := hlands action haction
    cases action with
    | Issue | Renew =>
      rw [perform_bind_pure_snd]
      exact whole_of_lego hof hwhole (by decide) hland
    | Revoke =>
      rw [perform_bind_pure_snd]
      exact whole_of_clears hof ((dir.lego_keeps ..).trans hwhole.2) hland

theorem checkpoint_fields (prior_cert prior_key : Option ByteArray) :
    prior_present (checkpoint prior_cert prior_key) = prior_cert.isSome ∧
      ((checkpoint prior_cert prior_key).get "prior_cert_b64").bind Value.as_str =
        prior_cert.map (fun b => base64.encode b.data.toList) ∧
      ((checkpoint prior_cert prior_key).get "prior_key_b64").bind Value.as_str =
        prior_key.map (fun b => base64.encode b.data.toList) := by
  rw [prior_present, checkpoint, Value.get_json, Value.get_json, Value.get_json]
  refine ⟨rfl, ?_, ?_⟩
  · cases prior_cert <;> rfl
  · cases prior_key <;> rfl

/-- A file of the checkpoint is there again; one that it does not have is left. -/
theorem restore_ok {key what : String} {part : Part} {prior : Option ByteArray}
    (hfield : (saved.get key).bind Value.as_str = prior.map fun b => base64.encode b.data.toList)
    (h : perform (restore dir.fs saved key what (part.file cert_dir domain)) s = (.ok (), t)) :
    dir.content t = Function.update (dir.content s) part (prior.or (dir.content s part)) := by
  rw [restore, hfield] at h
  cases prior with
  | none =>
    obtain ⟨-, rfl⟩ := Prod.mk.inj h
    simp
  | some bytes =>
    simp only [Option.map_some, base64.decode_encode] at h
    have hbytes : bytes.data.toList.toByteArray = bytes := ByteArray.ext (Array.toList_inj.mp List.toList_data_toByteArray)
    rw [dir.write_ok (perform_map_error_eq_ok_iff.mp h), hbytes]
    rfl

theorem rollback_of_cert {cert : ByteArray} {prior_key : Option ByteArray} (hof : spec.Of cert_dir domain)
    (h : perform (rollback dir.fs spec (checkpoint (some cert) prior_key)) s = (.ok (), t)) :
    dir.content t .Cert = some cert ∧ dir.content t .Key = prior_key.or (dir.content s .Key) ∧
      dir.content t .Expiry = dir.content s .Expiry := by
  obtain ⟨hpresent, hcert, hkey⟩ := checkpoint_fields (some cert) prior_key
  rw [rollback, hpresent, Option.isSome_some, if_pos rfl] at h
  obtain ⟨⟨⟩, s₁, hcreate, h⟩ := perform_bind_eq_ok_iff.mp h
  obtain ⟨⟨⟩, s₂, hwrite_cert, hwrite_key⟩ := perform_bind_eq_ok_iff.mp h
  have hcreated : dir.content s₁ = dir.content s := by
    have hkept := dir.create_keeps s
    rw [hof.dir] at hcreate
    rw [perform_map_error_eq_ok_iff.mp hcreate] at hkept
    exact hkept
  rw [AcmeCertSpec.cert_file, hof.file] at hwrite_cert
  rw [AcmeCertSpec.key_file, hof.file] at hwrite_key
  rw [restore_ok hkey hwrite_key, restore_ok hcert hwrite_cert, hcreated]
  simp

theorem rollback_of_none {prior_key : Option ByteArray} :
    perform (rollback dir.fs spec (checkpoint none prior_key)) s = (.ok (), remove_pair dir.fs spec s) := by
  obtain ⟨hpresent, -⟩ := checkpoint_fields none prior_key
  rw [rollback, hpresent]
  rfl

theorem pre_apply_eq (hof : spec.Of cert_dir domain) (h : Host) :
    pre_apply dir.fs spec h = checkpoint (dir.content h .Cert) (dir.content h .Key) := by
  rw [pre_apply, AcmeCertSpec.cert_file, AcmeCertSpec.key_file, hof.file, hof.file, dir.read_ok, dir.read_ok]

/-- A rollback that can write and remove the files leaves both or neither. -/
theorem whole_of_rollback (hof : spec.Of cert_dir domain) (hwhole : dir.Whole s) (hbefore : dir.Whole u)
    (hsaved : pre_apply dir.fs spec u = saved)
    (hfair : if prior_present saved then ∃ t, perform (rollback dir.fs spec saved) s = (.ok (), t) else dir.Clears spec s) :
    dir.Whole (perform (rollback dir.fs spec saved) s).2 := by
  obtain rfl := hsaved
  rw [pre_apply_eq hof] at hfair ⊢
  rw [(checkpoint_fields _ _).1] at hfair
  have heven := hbefore.1
  rw [CertDir.Even] at heven
  cases hcert : dir.content u .Cert with
  | none =>
    rw [hcert] at hfair
    rw [rollback_of_none]
    exact whole_of_clears hof hwhole.2 hfair
  | some cert =>
    rw [hcert] at hfair heven
    obtain ⟨t, hrollback⟩ := hfair
    obtain ⟨key, hkey⟩ := Option.isSome_iff_exists.mp heven.symm
    obtain ⟨hcert', hkey', hexpiry⟩ := rollback_of_cert hof hrollback
    rw [hrollback]
    refine ⟨?_, hexpiry.trans hwhole.2⟩
    rw [CertDir.Even, hcert', hkey', hkey]
    rfl

/-- From a whole pair a rollback gives both files back. -/
theorem pair_of_rollback (hof : spec.Of cert_dir domain) (hbefore : dir.Whole s)
    (hclears : dir.content s .Cert = none → dir.Clears spec t)
    (h : perform (rollback dir.fs spec (pre_apply dir.fs spec s)) t = (.ok (), u)) :
    dir.content u .Cert = dir.content s .Cert ∧ dir.content u .Key = dir.content s .Key := by
  have heven := hbefore.1
  rw [CertDir.Even] at heven
  rw [pre_apply_eq hof] at h
  cases hcert : dir.content s .Cert with
  | none =>
    rw [hcert, Option.isSome_none, eq_comm, Option.isSome_eq_false_iff, Option.isNone_iff_eq_none] at heven
    rw [hcert, rollback_of_none] at h
    obtain ⟨-, rfl⟩ := Prod.mk.inj h
    exact ⟨(hclears hcert).1, heven ▸ (hclears hcert).2⟩
  | some cert =>
    rw [hcert] at h heven
    obtain ⟨key, hkey⟩ := Option.isSome_iff_exists.mp heven.symm
    obtain ⟨hcert', hkey', -⟩ := rollback_of_cert hof h
    rw [hkey] at hkey' ⊢
    exact ⟨hcert', hkey'⟩

theorem window_le_of_days {expiry now : Int} {window : Nat} (hwindow : 0 < window)
    (h : ¬ (expiry - now).tdiv 86400 < window) : now + window * 86400 ≤ expiry := by
  obtain hneg | hpos := lt_or_ge (expiry - now) 0
  · have hdays : (expiry - now).tdiv 86400 ≤ 0 := by
      rw [← Int.neg_neg (expiry - now), Int.neg_tdiv]
      have hpositive := Int.tdiv_nonneg (a := -(expiry - now)) (b := 86400) (by omega) (by omega)
      omega
    omega
  · rw [Int.tdiv_eq_ediv_of_nonneg hpos] at h
    omega

theorem observed_facts (hof : spec.Of cert_dir domain) (h : Host) :
    ∃ observed, (∀ d, dir.ops.drift spec h = .ok d → d = diff spec observed) ∧
      observed.facts.lookup "cert_present" = some (.bool (dir.content h .Cert).isSome) ∧
      observed.facts.lookup "days_left" = some (((read_expiry_with_fallback dir.fs spec h).map fun e =>
        of_i64 ((e - dir.fs.now h).tdiv 86400)).getD .null) := by
  refine ⟨observe dir.fs spec h, fun d hdrift => (Except.ok.inj hdrift).symm, ?_, ?_⟩
  · rw [← dir.exists_ok, ← hof.file]
    rfl
  · cases hread : read_expiry_with_fallback dir.fs spec h <;> simp [observe, hread, List.lookup_cons]

/-- No change is reported for a certificate that is outside the window. -/
theorem expiry_of_no_change (hof : spec.Of cert_dir domain) (hwindow : 0 < spec.renew_window_days)
    (hstate : spec.state = .Present) (hexpiry : dir.content s .Expiry = none) (h : dir.ops.NoChange spec s) :
    ∃ cert expiry, dir.content s .Cert = some cert ∧ dir.not_after cert = some expiry ∧
      dir.fs.now s + spec.renew_window_days * 86400 ≤ expiry := by
  obtain ⟨d, hdrift, hno_change⟩ := h
  obtain ⟨observed, hd, hcert, hdays⟩ := observed_facts hof s
  obtain rfl := hd d hdrift
  have hread : read_expiry_with_fallback dir.fs spec s = (dir.content s .Cert).bind dir.not_after := by
    rw [read_expiry_with_fallback, hof.file, dir.read_ok, hexpiry, AcmeCertSpec.cert_file, hof.file, dir.expiry_ok]
    rfl
  simp only [diff, hcert, hdays, hread, hstate] at hno_change
  cases hcontent : dir.content s .Cert with
  | none =>
    rw [hcontent] at hno_change
    cases hno_change
  | some cert =>
    rw [hcontent] at hno_change
    cases hafter : dir.not_after cert with
    | none => simp [hafter, Diff.is_change, as_i64] at hno_change
    | some expiry =>
      refine ⟨cert, expiry, rfl, hafter, window_le_of_days hwindow fun hshort => ?_⟩
      simp only [Option.bind_some, hafter, Option.map_some, Option.getD_some] at hno_change
      cases hdays : as_i64 (of_i64 ((expiry - dir.fs.now s).tdiv 86400)) with
      | none => simp [hdays, Diff.is_change] at hno_change
      | some days =>
        obtain rfl := as_i64_of_i64 hdays
        simp [hdays, hshort, Diff.is_change] at hno_change

theorem window_of_validate (h : spec.validate = .ok ()) : 0 < spec.renew_window_days := by
  obtain ⟨⟨⟩, -, h⟩ := fallible.bind_eq_ok_iff.mp h
  obtain ⟨⟨⟩, -, h⟩ := fallible.bind_eq_ok_iff.mp h
  obtain ⟨⟨⟩, -, h⟩ := fallible.bind_eq_ok_iff.mp h
  obtain ⟨⟨⟩, hwindow, -⟩ := fallible.bind_eq_ok_iff.mp h
  unfold check_window at hwindow
  split_ifs at hwindow with hrange
  omega

end Steps

/-- In a run whose clients leave both files or neither, whose files can be
written and removed, and in which nothing else takes one file of the two, no
change means that both files are there and the certificate is outside the
window, and a rollback gives both files back. -/
theorem certificate_lifecycle {Host Act : Type} {cert_dir domain : List Char} {dir : CertDir Host cert_dir domain}
    {act : Act → Host → Host} {start : Host} {w : Cycled Host AcmeCertSpec} (hstart : dir.Whole start)
    (hrun : Run (dir.cycles act).step ((dir.cycles act).fair (dir.fair act)) ⟨start, []⟩ w)
    {spec : AcmeCertSpec} (hof : spec.Of cert_dir domain) :
    (spec.validate = .ok () → spec.state = .Present → dir.ops.NoChange spec w.host →
      (dir.content w.host .Key).isSome = true ∧ ∃ cert expiry, dir.content w.host .Cert = some cert ∧
        dir.not_after cert = some expiry ∧ dir.fs.now w.host + spec.renew_window_days * 86400 ≤ expiry) ∧
    ∀ step saved t u, dir.ops.Planned spec w.host step → dir.ops.pre_apply spec w.host = .ok saved →
      t = (perform (dir.ops.apply spec step saved) w.host).2 → (dir.content w.host .Cert = none → dir.Clears spec t) →
      perform (dir.ops.rollback spec saved) t = (.ok (), u) →
      dir.content u .Cert = dir.content w.host .Cert ∧ dir.content u .Key = dir.content w.host .Key := by
  have hwhole : dir.Whole w.host := by
    refine Cycles.invariant hrun hstart ?_ ?_ fun h a _ hfair => hfair
    · intro h id spec step saved hwhole hadmits hplanned hfair
      obtain ⟨hdir, hdomain⟩ := Bool.and_eq_true_iff.mp hadmits
      exact whole_of_apply ⟨beq_iff_eq.mp hdir, beq_iff_eq.mp hdomain⟩ hwhole hfair
    · intro h before spec saved hwhole hbefore hadmits hsaved hfair
      obtain ⟨hdir, hdomain⟩ := Bool.and_eq_true_iff.mp hadmits
      exact whole_of_rollback ⟨beq_iff_eq.mp hdir, beq_iff_eq.mp hdomain⟩ hwhole hbefore (Except.ok.inj hsaved) hfair
  refine ⟨fun hvalid hstate hno_change => ?_, ?_⟩
  · obtain ⟨cert, expiry, hcert, hafter, hwindow⟩ :=
      expiry_of_no_change hof (window_of_validate hvalid) hstate hwhole.2 hno_change
    have heven := hwhole.1
    rw [CertDir.Even, hcert] at heven
    exact ⟨heven.symm, cert, expiry, hcert, hafter, hwindow⟩
  · rintro step saved t u - hsaved - hclears hrollback
    obtain rfl := Except.ok.inj hsaved
    exact pair_of_rollback hof hwhole hclears hrollback

section Samples

abbrev Disk := Part → Option ByteArray

def certs : List Char := ['/', 'c']

def host_name : List Char := ['a']

def part_of (file : List Char) : Option Part := [Part.Cert, .Key, .Expiry].find? fun part => part.file certs host_name == file

theorem part_of_file (part : Part) : part_of (part.file certs host_name) = some part := by
  cases part <;> decide

def pem : ByteArray := ⟨#[45]⟩

def Disk.read (file : List Char) (d : Disk) : Option ByteArray := (part_of file).bind d

def Disk.set (file : List Char) (bytes : Option ByteArray) (d : Disk) : Disk :=
  match part_of file with
  | some part => Function.update d part bytes
  | none => d

theorem Disk.read_file (part : Part) (d : Disk) : d.read (part.file certs host_name) = d part := by
  rw [Disk.read, part_of_file]
  rfl

theorem Disk.set_file (part : Part) (bytes : Option ByteArray) (d : Disk) :
    d.set (part.file certs host_name) bytes = Function.update d part bytes := by
  rw [Disk.set, part_of_file]

/-- A directory on which calls succeed, with certificates for ninety days. -/
def disk : CertDir Disk certs host_name where
  fs := {
    path_exists := fun file d => (d.read file).isSome
    read := Disk.read
    create_dir_all := fun _ => pure ()
    write := fun file bytes => modify (Disk.set file (some bytes))
    remove_file := fun file => Disk.set file none
    read_cert_expiry_unix := fun file d => (d.read file).bind fun _ => some 7776000
    now := fun _ => 0 }
  lego _ _ := modify fun d part => if part = .Expiry then d .Expiry else some pem
  content := id
  not_after _ := some 7776000
  exists_ok part d := congrArg Option.isSome (d.read_file part)
  read_ok part d := d.read_file part
  expiry_ok d := congrArg (Option.bind · fun _ => some 7776000) (d.read_file .Cert)
  create_keeps _ := rfl
  write_ok {part bytes d _} h := by
    obtain ⟨-, rfl⟩ := Prod.mk.inj h
    exact d.set_file part (some bytes)
  remove_keeps {part other} d hne := (congrFun (d.set_file part none) other).trans (Function.update_of_ne hne ..)
  lego_keeps _ _ _ _ := rfl
  lego_ok _ _ _ h := by
    obtain ⟨-, rfl⟩ := Prod.mk.inj h
    exact ⟨rfl, rfl⟩

def site : AcmeCertSpec where
  domains := ["a"]
  email := "@"
  cert_dir := certs
  challenge := .Dns01Cloudflare
  cloudflare_api_token := some "t"

theorem site_of : site.Of certs host_name := ⟨rfl, by decide⟩

/-- The certificate and its key, and nothing else. -/
def pair : Disk := fun part => if part = .Expiry then none else some pem

/-- A certificate that is issued is there with its key. -/
theorem issued_certificate_has_key : ∃ w : Cycled Disk AcmeCertSpec,
    Run (disk.cycles fun _ : Unit => id).step ((disk.cycles fun _ : Unit => id).fair (disk.fair fun _ : Unit => id))
      ⟨fun _ => none, []⟩ w ∧
    disk.ops.NoChange site w.host ∧ (disk.content w.host .Key).isSome = true := by
  have hissue : (disk.cycles fun _ : Unit => id).step ⟨fun _ => none, []⟩ (.apply 0 site) =
      some ⟨pair, [(site, checkpoint none none)]⟩ := rfl
  have hfair : (disk.cycles fun _ : Unit => id).fair (disk.fair fun _ : Unit => id) ⟨fun _ => none, []⟩ (.apply 0 site) := by
    rintro step saved - (_ | _ | _) -
    · rintro e t ⟨⟩
    · rintro e t ⟨⟩
    · exact ⟨rfl, rfl⟩
  have hrun := Run.start.step hfair hissue
  have hno_change : disk.ops.NoChange site pair := ⟨_, rfl, rfl⟩
  have hstart : disk.Whole fun _ => none := ⟨rfl, rfl⟩
  exact ⟨_, hrun, hno_change, ((certificate_lifecycle hstart hrun site_of).1 rfl rfl hno_change).1⟩

/-- A certificate whose key was removed by hand is reported as it should be. -/
theorem removed_key_is_not_reported :
    ¬ ∀ (dir : CertDir Disk certs host_name) (act : Unit → Disk → Disk) (start : Disk) (w : Cycled Disk AcmeCertSpec),
      dir.Whole start → Run (dir.cycles act).step (fun _ _ => True) ⟨start, []⟩ w →
      ∀ spec : AcmeCertSpec, spec.Of certs host_name → spec.validate = .ok () → spec.state = .Present →
        dir.ops.NoChange spec w.host → (dir.content w.host .Key).isSome = true := by
  intro hall
  have hremoved : Run (disk.cycles fun _ : Unit => fun d => Function.update d .Key none).step (fun _ _ => True) ⟨pair, []⟩
      ⟨Function.update pair .Key none, []⟩ := Run.start.step (a := .outside ()) trivial rfl
  have hno_change : disk.ops.NoChange site (Function.update pair .Key none) := ⟨_, rfl, rfl⟩
  have hkey := hall disk _ pair _ ⟨rfl, rfl⟩ hremoved site site_of rfl rfl hno_change
  cases hkey

end Samples

end iac_providers.acme
