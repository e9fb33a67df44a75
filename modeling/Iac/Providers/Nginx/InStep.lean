import Iac.Core.Sha256
import Iac.Providers.Nginx
import Mathlib.Logic.Function.Basic

open iac_core iac_core.executor serde_json effect transition

namespace iac_providers.nginx

variable {Host : Type}

/-- A host with nginx: the files, what the server has loaded of each, and what
the calls have done. A write that fails leaves the file, as it renames at its end. -/
structure Nginx (Host : Type) extends NginxBackend Host where
  file : Host → String → Option String
  loaded : Host → String → Option String
  read_ok : ∀ {path h content}, read_config path h = .ok content → content = file h path
  write_ok : ∀ {path content h h'}, perform (write_config path content) h = (.ok (), h') → file h' path = some content
  write_error : ∀ {path content h h' e}, perform (write_config path content) h = (.error e, h') → file h' path = file h path
  write_loaded : ∀ {path content} h, loaded (perform (write_config path content) h).2 = loaded h
  remove_ok : ∀ {path h h'}, perform (remove_config path) h = (.ok (), h') → file h' path = none
  remove_error : ∀ {path h h' e}, perform (remove_config path) h = (.error e, h') → file h' path = file h path
  remove_loaded : ∀ {path} h, loaded (perform (remove_config path) h).2 = loaded h
  validate_file : ∀ h, file (perform validate h).2 = file h
  validate_loaded : ∀ h, loaded (perform validate h).2 = loaded h
  reload_file : ∀ h, file (perform reload h).2 = file h
  reload_ok : ∀ {h h'}, perform reload h = (.ok (), h') → loaded h' = file h
  reload_error : ∀ {h h' e}, perform reload h = (.error e, h') → loaded h' = loaded h

section Cycles

variable (sha256_hex : List UInt8 → String) (nginx : Nginx Host) (path : String)

/-- The cycles of the specs of one config path. -/
def cycles : Cycles Host NginxVhostSpec Empty where
  ops := ops sha256_hex nginx.toNginxBackend
  admits spec := spec.config_path == path
  act a := a.elim

/-- Some spec of the path reports no change for the content. -/
def Described (content : Option String) : Prop :=
  ∀ text, content = some text → ∃ spec : NginxVhostSpec, spec.config_path = path ∧ spec.state = .Present ∧
    sha256_text sha256_hex (render spec) = sha256_text sha256_hex text

/-- The server has loaded the file, where a spec describes it. -/
def InStep (h : Host) : Prop :=
  Described sha256_hex path (nginx.file h path) → nginx.loaded h path = nginx.file h path

/-- The file that the step writes, or its removal. -/
def change (spec : NginxVhostSpec) : Prog Host Error Unit :=
  match spec.state with
  | .Present => nginx.write_config spec.config_path (render spec)
  | .Absent => nginx.remove_config spec.config_path

/-- What is rejected is restored, and a reload of an apply does not fail. -/
structure Reloads (spec : NginxVhostSpec) (saved : Value) (h : Host) : Prop where
  restored : ∀ {t u e}, perform (change nginx spec) h = (.ok (), t) → perform nginx.validate t = (.error e, u) →
    ∃ v, perform (restore nginx.toNginxBackend spec.config_path saved) u = (.ok (), v)
  reloaded : ∀ {t u}, perform (change nginx spec) h = (.ok (), t) → perform nginx.validate t = (.ok (), u) →
    ∃ v, perform nginx.reload u = (.ok (), v)

/-- A rollback restores the file and reloads it, or restores a file that the server has loaded or that no spec describes. -/
def fair : Condition Host NginxVhostSpec Empty where
  apply spec _ saved h := Reloads nginx spec saved h
  rollback spec saved h := ∃ t, perform (restore nginx.toNginxBackend spec.config_path saved) h = (.ok (), t) ∧
    (InStep sha256_hex nginx path t ∨
      ∃ u v, perform nginx.validate t = (.ok (), u) ∧ perform nginx.reload u = (.ok (), v))
  outside _ _ := True

end Cycles

section Steps

variable {sha256_hex : List UInt8 → String} {nginx : Nginx Host} {path : String} {spec : NginxVhostSpec} {s t u : Host}

/-- The checkpoint gives the file back. -/
theorem restore_checkpoint {content : Option String}
    (h : perform (restore nginx.toNginxBackend path (checkpoint path content)) s = (.ok (), t)) :
    nginx.file t path = content := by
  cases content with
  | none =>
    have hexisted : existed (checkpoint path none) = false := by
      rw [existed, checkpoint, Value.get_json]
      rfl
    rw [restore, hexisted] at h
    exact nginx.remove_ok h
  | some text =>
    have hexisted : existed (checkpoint path (some text)) = true := by
      rw [existed, checkpoint, Value.get_json]
      rfl
    have hcontent : ((checkpoint path (some text)).get "content").bind Value.as_str = some text := by
      rw [checkpoint, Value.get_json]
      rfl
    rw [restore, hexisted, hcontent] at h
    exact nginx.write_ok h

theorem restore_loaded {saved : Value} :
    nginx.loaded (perform (restore nginx.toNginxBackend path saved) s).2 = nginx.loaded s := by
  unfold restore
  split
  · split
    · exact nginx.write_loaded s
    · rfl
  · exact nginx.remove_loaded s

theorem change_error {e : Error} (h : perform (change nginx spec) s = (.error e, t)) :
    nginx.file t spec.config_path = nginx.file s spec.config_path := by
  rw [change] at h
  split at h
  · exact nginx.write_error h
  · exact nginx.remove_error h

theorem change_loaded : nginx.loaded (perform (change nginx spec) s).2 = nginx.loaded s := by
  unfold change
  split
  · exact nginx.write_loaded s
  · exact nginx.remove_loaded s

/-- A change either fails and leaves file and server as they were, or ends with the file loaded. -/
theorem change_and_reload_cases {saved : Value} {rejected : String} (hreloads : Reloads nginx spec saved s)
    (hsaved : saved = checkpoint spec.config_path (nginx.file s spec.config_path)) :
    (∃ e t, perform (change_and_reload nginx.toNginxBackend spec (change nginx spec) saved rejected) s = (.error e, t) ∧
      nginx.file t spec.config_path = nginx.file s spec.config_path ∧ nginx.loaded t = nginx.loaded s) ∨
    ∃ t, perform (change_and_reload nginx.toNginxBackend spec (change nginx spec) saved rejected) s = (.ok (), t) ∧
      nginx.loaded t = nginx.file t := by
  have hchange_loaded : nginx.loaded (perform (change nginx spec) s).2 = nginx.loaded s := change_loaded
  rcases hchange : perform (change nginx spec) s with ⟨e | ⟨⟩, t⟩
  · left
    rw [hchange] at hchange_loaded
    exact ⟨e, t, perform_bind_error hchange, change_error hchange, hchange_loaded⟩
  · rw [hchange] at hchange_loaded
    have hvalidate_loaded := nginx.validate_loaded t
    rcases hvalidate : perform nginx.validate t with ⟨e | ⟨⟩, u⟩
    · left
      obtain ⟨v, hrestore⟩ := hreloads.restored hchange hvalidate
      rw [hvalidate] at hvalidate_loaded
      have hrestore_loaded : nginx.loaded (perform (restore nginx.toNginxBackend spec.config_path saved) u).2 =
          nginx.loaded u := restore_loaded
      rw [hrestore] at hrestore_loaded
      have hattempt : perform (attempt nginx.validate) t = (.ok (.error e), u) := by rw [perform_attempt, hvalidate]
      refine ⟨.Provider "nginx" (rejected ++ e.to_string), v, ?_, restore_checkpoint (hsaved ▸ hrestore), ?_⟩
      · rw [change_and_reload, perform_bind_ok hchange, perform_bind_ok hattempt]
        exact perform_bind_ok hrestore
      · exact hrestore_loaded.trans (hvalidate_loaded.trans hchange_loaded)
    · right
      obtain ⟨v, hreload⟩ := hreloads.reloaded hchange hvalidate
      have hattempt : perform (attempt nginx.validate) t = (.ok (.ok ()), u) := by rw [perform_attempt, hvalidate]
      have hfile := nginx.reload_file u
      rw [hreload] at hfile
      refine ⟨v, ?_, (nginx.reload_ok hreload).trans hfile.symm⟩
      rw [change_and_reload, perform_bind_ok hchange, perform_bind_ok hattempt]
      exact hreload

/-- The action of the step that is planned for a spec. -/
def NginxVhostSpec.action (spec : NginxVhostSpec) : NginxAction :=
  match spec.state with
  | .Present => .Write
  | .Absent => .Remove

/-- A planned step is applied by changing and reloading the file. -/
theorem perform_apply {id : Ulid} {step : Step} {saved : Value}
    (h : (ops sha256_hex nginx.toNginxBackend).planned_step id spec s = .ok (some (step, saved))) :
    ∃ rejected result, apply sha256_hex nginx.toNginxBackend spec step saved =
      change_and_reload nginx.toNginxBackend spec (change nginx spec) saved rejected >>= fun _ => pure result := by
  obtain ⟨-, d, -, hstep⟩ := Ops.planned_step_ok h
  have haction : step.action = spec.action.as_str := by
    change step ∈ plan id spec d at hstep
    rw [plan] at hstep
    split at hstep
    · cases hstep
    · cases hstate : spec.state with
      | Present | Absent =>
        rw [hstate] at hstep
        rw [List.mem_singleton.mp hstep, NginxVhostSpec.action, hstate]
        rfl
  rw [apply, haction, NginxVhostSpec.action, change]
  cases spec.state with
  | Present => exact ⟨_, _, rfl⟩
  | Absent => exact ⟨_, _, rfl⟩

/-- The checkpoint of a planned step holds the file. -/
theorem planned_checkpoint {id : Ulid} {step : Step} {saved : Value}
    (h : (ops sha256_hex nginx.toNginxBackend).planned_step id spec s = .ok (some (step, saved))) :
    saved = checkpoint spec.config_path (nginx.file s spec.config_path) := by
  obtain ⟨hsaved, -⟩ := Ops.planned_step_ok h
  obtain ⟨content, hread, hcheckpoint⟩ := fallible.bind_eq_ok_iff.mp hsaved
  rw [← nginx.read_ok hread]
  exact (Except.ok.inj hcheckpoint).symm

/-- An apply that returns an error leaves the file. -/
theorem file_of_failed_apply {id : Ulid} {step : Step} {saved : Value} {e : Error}
    (h : (ops sha256_hex nginx.toNginxBackend).planned_step id spec s = .ok (some (step, saved)))
    (hreloads : Reloads nginx spec saved s)
    (hfails : perform (apply sha256_hex nginx.toNginxBackend spec step saved) s = (.error e, t)) :
    nginx.file t spec.config_path = nginx.file s spec.config_path := by
  obtain ⟨rejected, result, happly⟩ := perform_apply h
  rw [happly] at hfails
  obtain ⟨e', u, hrun, hfile, -⟩ | ⟨u, hrun, -⟩ := change_and_reload_cases hreloads (planned_checkpoint h)
  · obtain ⟨-, rfl⟩ := Prod.mk.inj ((perform_bind_error hrun).symm.trans hfails)
    exact hfile
  · cases (Prod.mk.inj ((perform_bind_ok hrun).symm.trans hfails)).1

/-- What changes neither the file nor the server keeps them in step. -/
theorem InStep.of_same (h : InStep sha256_hex nginx path s) (hfile : nginx.file t path = nginx.file s path)
    (hloaded : nginx.loaded t = nginx.loaded s) : InStep sha256_hex nginx path t := by
  intro hdescribed
  rw [hfile] at hdescribed ⊢
  rw [hloaded]
  exact h hdescribed

theorem inStep_of_loaded (h : nginx.loaded s = nginx.file s) : InStep sha256_hex nginx path s := fun _ => congrFun h path

theorem inStep_of_apply {id : Ulid} {step : Step} {saved : Value} (hinstep : InStep sha256_hex nginx path s)
    (hpath : spec.config_path = path)
    (h : (ops sha256_hex nginx.toNginxBackend).planned_step id spec s = .ok (some (step, saved)))
    (hreloads : Reloads nginx spec saved s) :
    InStep sha256_hex nginx path (perform (apply sha256_hex nginx.toNginxBackend spec step saved) s).2 := by
  obtain ⟨rejected, result, happly⟩ := perform_apply h
  rw [happly]
  obtain ⟨e, t, hrun, hfile, hloaded⟩ | ⟨t, hrun, hloaded⟩ := change_and_reload_cases hreloads (planned_checkpoint h)
  · rw [perform_bind_error hrun]
    exact hinstep.of_same (hpath ▸ hfile) hloaded
  · rw [perform_bind_ok hrun]
    exact inStep_of_loaded hloaded

/-- Check and reload, whatever comes of them. -/
theorem inStep_of_validate_reload (h : InStep sha256_hex nginx path s) :
    InStep sha256_hex nginx path (perform (nginx.validate >>= fun _ => nginx.reload) s).2 := by
  have hvalidate_file := nginx.validate_file s
  have hvalidate_loaded := nginx.validate_loaded s
  rcases hvalidate : perform nginx.validate s with ⟨e | ⟨⟩, t⟩ <;> rw [hvalidate] at hvalidate_file hvalidate_loaded
  · rw [perform_bind_error hvalidate]
    exact h.of_same (congrFun hvalidate_file path) hvalidate_loaded
  · rw [perform_bind_ok hvalidate]
    have hreload_file := nginx.reload_file t
    rcases hreload : perform nginx.reload t with ⟨e | ⟨⟩, u⟩ <;> rw [hreload] at hreload_file
    · exact h.of_same (congrFun (hreload_file.trans hvalidate_file) path)
        ((nginx.reload_error hreload).trans hvalidate_loaded)
    · exact inStep_of_loaded ((nginx.reload_ok hreload).trans hreload_file.symm)

theorem inStep_of_rollback {saved : Value}
    (hfair : (fair sha256_hex nginx path).rollback spec saved s) :
    InStep sha256_hex nginx path (perform (rollback nginx.toNginxBackend spec saved) s).2 := by
  obtain ⟨t, hrestore, hrest⟩ := hfair
  rw [rollback, perform_bind_ok hrestore]
  obtain hinstep | ⟨u, v, hvalidate, hreload⟩ := hrest
  · exact inStep_of_validate_reload hinstep
  · have hfile := nginx.reload_file u
    rw [hreload] at hfile
    rw [perform_bind_ok hvalidate, hreload]
    exact inStep_of_loaded ((nginx.reload_ok hreload).trans hfile.symm)

/-- No change is reported for a file that a spec describes. -/
theorem described_of_no_change (hpath : spec.config_path = path)
    (h : (ops sha256_hex nginx.toNginxBackend).NoChange spec s) : Described sha256_hex path (nginx.file s path) := by
  obtain ⟨d, hdrift, hno_change⟩ := h
  obtain ⟨observed, hobserve, hdiff⟩ := fallible.bind_eq_ok_iff.mp hdrift
  obtain ⟨content, hread, hreturn⟩ := fallible.bind_eq_ok_iff.mp hobserve
  obtain rfl := Except.ok.inj hdiff
  rw [hpath] at hread
  rw [← nginx.read_ok hread]
  rintro text rfl
  obtain rfl := Except.ok.inj hreturn
  refine ⟨spec, hpath, ?_⟩
  unfold diff at hno_change
  cases hstate : spec.state with
  | Absent =>
    rw [hstate] at hno_change
    cases hno_change
  | Present =>
    rw [hstate] at hno_change
    simp only at hno_change
    split_ifs at hno_change with hsame
    · exact ⟨rfl, hsame⟩
    · cases hno_change

end Steps

/-- In a run whose applies restore what is rejected and can reload, and whose
rollbacks do or leave what is loaded, no change means that the server has
loaded the file, and a failed apply leaves the file. -/
theorem config_and_server_in_step {sha256_hex : List UInt8 → String} {nginx : Nginx Host} {path : String} {start : Host}
    {w : Cycled Host NginxVhostSpec} (hstart : nginx.loaded start path = nginx.file start path)
    (hrun : Run (cycles sha256_hex nginx path).step ((cycles sha256_hex nginx path).fair (fair sha256_hex nginx path))
      ⟨start, []⟩ w) :
    (∀ spec, spec.config_path = path → (ops sha256_hex nginx.toNginxBackend).NoChange spec w.host →
      nginx.loaded w.host path = nginx.file w.host path) ∧
    ∀ id spec step saved e u, spec.config_path = path →
      (ops sha256_hex nginx.toNginxBackend).planned_step id spec w.host = .ok (some (step, saved)) →
      Reloads nginx spec saved w.host →
      perform ((ops sha256_hex nginx.toNginxBackend).apply spec step saved) w.host = (.error e, u) →
      nginx.file u path = nginx.file w.host path := by
  have hinstep : InStep sha256_hex nginx path w.host := by
    refine Cycles.invariant hrun (fun _ => hstart) ?_ ?_ (fun _ a => a.elim)
    · intro h id spec step saved hkept hadmits hplanned hfair
      exact inStep_of_apply hkept (beq_iff_eq.mp hadmits) hplanned hfair
    · exact fun h before spec saved _ _ _ _ hfair => inStep_of_rollback hfair
  refine ⟨fun spec hpath h => hinstep (described_of_no_change hpath h), ?_⟩
  rintro id spec step saved e u rfl hplanned hreloads hfails
  exact file_of_failed_apply hplanned hreloads hfails

section Samples

/-- A server that can reload or cannot. -/
structure Server where
  files : String → Option String
  loaded : String → Option String
  reloads : Bool

def server : Nginx Server where
  read_config path s := .ok (s.files path)
  write_config path content := of_fun fun s => (.ok (), { s with files := Function.update s.files path (some content) })
  remove_config path := of_fun fun s => (.ok (), { s with files := Function.update s.files path none })
  validate := pure ()
  reload := of_fun fun s =>
    if s.reloads then (.ok (), { s with loaded := s.files })
    else (.error (.Provider "nginx" "systemctl reload nginx failed"), s)
  file := Server.files
  loaded := Server.loaded
  read_ok h := (Except.ok.inj h).symm
  write_ok h := by
    obtain ⟨-, rfl⟩ := Prod.mk.inj h
    exact Function.update_self ..
  write_error h := by cases (Prod.mk.inj h).1
  write_loaded _ := rfl
  remove_ok h := by
    obtain ⟨-, rfl⟩ := Prod.mk.inj h
    exact Function.update_self ..
  remove_error h := by cases (Prod.mk.inj h).1
  remove_loaded _ := rfl
  validate_file _ := rfl
  validate_loaded _ := rfl
  reload_file s := by
    rw [perform_of_fun]
    split <;> rfl
  reload_ok {s t} h := by
    rw [perform_of_fun] at h
    split at h
    · obtain ⟨-, rfl⟩ := Prod.mk.inj h
      rfl
    · cases (Prod.mk.inj h).1
  reload_error {s t e} h := by
    rw [perform_of_fun] at h
    split at h
    · cases (Prod.mk.inj h).1
    · obtain ⟨-, rfl⟩ := Prod.mk.inj h
      rfl

def app_conf : NginxVhostSpec :=
  { config_path := "/etc/nginx/conf.d/app.conf", server_names := ["app.example.com"], upstream := some "http://127.0.0.1:8080" }

/-- No file, and a server that can reload or cannot. -/
def fresh (reloads : Bool) : Server := ⟨fun _ => none, fun _ => none, reloads⟩

theorem no_change_of_rendered {sha256_hex : List UInt8 → String} {backend : NginxBackend Host} {spec : NginxVhostSpec}
    {h : Host} (hstate : spec.state = .Present) (hread : backend.read_config spec.config_path h = .ok (some (render spec))) :
    (ops sha256_hex backend).NoChange spec h := by
  have hobserve : observe sha256_hex backend spec h = .ok _ := fallible.bind_eq_ok_iff.mpr ⟨_, hread, rfl⟩
  refine ⟨_, fallible.bind_eq_ok_iff.mpr ⟨_, hobserve, rfl⟩, ?_⟩
  simp only [diff, hstate]
  exact congrArg Diff.is_change (if_pos rfl)

/-- The sample cycle writes the file, and loads it where the server can. -/
private theorem app_conf_applied (reloads : Bool) : ∃ w,
    (cycles sha2.hex_digest server app_conf.config_path).step ⟨fresh reloads, []⟩ (.apply 0 app_conf) = some w ∧
      w.host.files = Function.update (fun _ => none) app_conf.config_path (some (render app_conf)) ∧
      (reloads = false → w.host.loaded = fun _ => none) := by
  cases reloads with
  | true => exact ⟨_, rfl, rfl, nofun⟩
  | false => exact ⟨_, rfl, rfl, fun _ => rfl⟩

private theorem app_conf_no_change {s : Server}
    (hfiles : s.files = Function.update (fun _ => none) app_conf.config_path (some (render app_conf))) :
    (ops sha2.hex_digest server.toNginxBackend).NoChange app_conf s := by
  refine no_change_of_rendered rfl ?_
  change Except.ok (s.files app_conf.config_path) = _
  rw [hfiles, Function.update_self]

/-- After an apply that succeeds the server has loaded the file. -/
theorem reloaded_config_is_in_step : ∃ w,
    Run (cycles sha2.hex_digest server app_conf.config_path).step
      ((cycles sha2.hex_digest server app_conf.config_path).fair (fair sha2.hex_digest server app_conf.config_path))
      ⟨fresh true, []⟩ w ∧
    (ops sha2.hex_digest server.toNginxBackend).NoChange app_conf w.host ∧
    server.loaded w.host app_conf.config_path = server.file w.host app_conf.config_path := by
  obtain ⟨w, hstep, hfiles, -⟩ := app_conf_applied true
  have hreloads (saved : Value) : Reloads server app_conf saved (fresh true) := by
    constructor
    · intro t u e _ hvalidate
      cases (Prod.mk.inj hvalidate).1
    · intro t u hchange hvalidate
      obtain ⟨-, rfl⟩ := Prod.mk.inj hchange
      obtain ⟨-, rfl⟩ := Prod.mk.inj hvalidate
      exact ⟨_, rfl⟩
  have hfair : (cycles sha2.hex_digest server app_conf.config_path).fair
      (fair sha2.hex_digest server app_conf.config_path) ⟨fresh true, []⟩ (.apply 0 app_conf) :=
    fun _ saved _ => hreloads saved
  have hrun : Run (cycles sha2.hex_digest server app_conf.config_path).step
      ((cycles sha2.hex_digest server app_conf.config_path).fair (fair sha2.hex_digest server app_conf.config_path))
      ⟨fresh true, []⟩ w := .step .start hfair hstep
  have hno_change := app_conf_no_change hfiles
  exact ⟨w, hrun, hno_change, (config_and_server_in_step rfl hrun).1 app_conf rfl hno_change⟩

/-- The first cycle writes the file and cannot reload the server: no change is
reported of the file, and the server has loaded none. -/
theorem failed_reload_reports_no_change :
    server.loaded (fresh false) app_conf.config_path = server.file (fresh false) app_conf.config_path ∧ ∃ w,
      (cycles sha2.hex_digest server app_conf.config_path).step ⟨fresh false, []⟩ (.apply 0 app_conf) = some w ∧
      (ops sha2.hex_digest server.toNginxBackend).NoChange app_conf w.host ∧
      server.file w.host app_conf.config_path = some (render app_conf) ∧
      server.loaded w.host app_conf.config_path = none := by
  obtain ⟨w, hstep, hfiles, hloaded⟩ := app_conf_applied false
  have hwritten : server.file w.host app_conf.config_path = some (render app_conf) := by
    change w.host.files app_conf.config_path = _
    rw [hfiles, Function.update_self]
  exact ⟨rfl, w, hstep, app_conf_no_change hfiles, hwritten, congrFun (hloaded rfl) _⟩

end Samples

end iac_providers.nginx
