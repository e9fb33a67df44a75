import Iac.Core.Executor.Apply

open serde_json effect

namespace iac_core.executor

variable {Host : Type} {exec : Executor Host} {provider : Provider Host} {resource : Resource} {op : Operation}

/-- The checkpoints that have been recorded. -/
def recorded (events : List Event) : List (Workspace × Checkpoint) :=
  events.filterMap fun
    | .record workspace checkpoint => some (workspace, checkpoint)
    | _ => none

/-- The checkpoint recorded last in the workspace. -/
def last_recorded (entries : List (Workspace × Checkpoint)) (workspace : Workspace) : Option Checkpoint :=
  (entries.reverse.find? fun entry => entry.1 = workspace).map Prod.snd

theorem last_recorded_concat (entries : List (Workspace × Checkpoint)) (workspace other : Workspace) (cp : Checkpoint) :
    last_recorded (entries ++ [(workspace, cp)]) other = if workspace = other then some cp else last_recorded entries other := by
  rw [last_recorded, List.reverse_append, List.reverse_singleton, List.singleton_append, List.find?_cons]
  by_cases hsame : workspace = other
  · simp [hsame]
  · simp [hsame, last_recorded]

theorem last_recorded_eq_some_iff {entries : List (Workspace × Checkpoint)} (hnodup : (entries.map Prod.fst).Nodup)
    {workspace : Workspace} {cp : Checkpoint} : last_recorded entries workspace = some cp ↔ (workspace, cp) ∈ entries := by
  rw [last_recorded, Option.map_eq_some_iff]
  constructor
  · rintro ⟨entry, hfind, rfl⟩
    have hkey : entry.1 = workspace := by simpa using List.find?_some hfind
    rw [← hkey]
    exact List.mem_reverse.mp (List.mem_of_find?_eq_some hfind)
  · intro hmem
    cases hfind : entries.reverse.find? fun entry => entry.1 = workspace with
    | none => simpa using List.find?_eq_none.mp hfind (workspace, cp) (List.mem_reverse.mpr hmem)
    | some entry =>
      have hkey : entry.1 = workspace := by simpa using List.find?_some hfind
      have hentry : entry ∈ entries := List.mem_reverse.mp (List.mem_of_find?_eq_some hfind)
      have heq : entry = (workspace, cp) := List.inj_on_of_nodup_map hnodup hentry hmem hkey
      exact ⟨entry, rfl, by rw [heq]⟩

/-- What `checkpoint.json` of the workspace holds. -/
def OperationDir.content (dir : OperationDir) (workspace : Workspace) : Option (Except Error Checkpoint) :=
  (dir.workspaces.lookup workspace).join

/-- Every workspace holds the checkpoint recorded last in it. -/
def Matches (dir : OperationDir) (entries : List (Workspace × Checkpoint)) : Prop :=
  ∀ workspace, dir.content workspace = (last_recorded entries workspace).map .ok

/-- Since the events `before`, the directory of the operation holds what has been
recorded, of kinds that are registered. -/
structure Recording (exec : Executor Host) (id : Ulid) (before : List Event) (w : World Host) : Prop where
  since : ∃ new, w.events = before ++ new ∧
    (∃ dir, w.operations.lookup id = some dir ∧ Matches dir (recorded new)) ∧
    ∀ entry ∈ recorded new, (exec.registry entry.2.resource_id.kind).isSome = true

section Apply

variable {before : List Event} {id : Ulid}

/-- A step that records nothing and leaves the checkpoints. -/
private theorem recording_of_same {w after : World Host} (h : Recording exec id before w)
    (hevents : after.events = w.events ∨ ∃ event, after.events = w.events ++ [event] ∧ recorded [event] = [])
    (hdir : ∀ dir, w.operations.lookup id = some dir →
      ∃ dir', after.operations.lookup id = some dir' ∧ ∀ workspace, dir'.content workspace = dir.content workspace) :
    Recording exec id before after := by
  obtain ⟨new, hnew, ⟨dir, hlookup, hmatches⟩, hregistered⟩ := h
  obtain ⟨dir', hlookup', hcontent⟩ := hdir dir hlookup
  have hmatches' (entries : List (Workspace × Checkpoint)) (hentries : entries = recorded new) : Matches dir' entries := by
    intro workspace
    rw [hcontent, hentries, hmatches]
  obtain hsame | ⟨event, hevent, hnone⟩ := hevents
  · exact ⟨new, hsame.trans hnew, ⟨dir', hlookup', hmatches' _ rfl⟩, hregistered⟩
  · have hrecorded : recorded (new ++ [event]) = recorded new := by
      have happend : recorded (new ++ [event]) = recorded new ++ recorded [event] := List.filterMap_append
      rw [happend, hnone, List.append_nil]
    refine ⟨new ++ [event], by rw [hevent, hnew, List.append_assoc], ⟨dir', hlookup', hmatches' _ hrecorded⟩, ?_⟩
    rw [hrecorded]
    exact hregistered

private theorem recording_of_kept {w after : World Host} (h : Recording exec id before w)
    (hevents : after.events = w.events) (hdirs : after.operations = w.operations) : Recording exec id before after :=
  recording_of_same h (.inl hevents) fun dir hdir => ⟨dir, by rw [hdirs, hdir], fun _ => rfl⟩

private theorem recording_draw {α : Type} (source : Nat → α) :
    Moves (Keeps (Recording exec id before)) (draw source : Exec Host α) :=
  fun _ h => recording_of_kept h rfl rfl

private theorem recording_call {α : Type} (f : Call Host α) : Moves (Keeps (Recording exec id before)) (call f) :=
  fun _ h => recording_of_kept h rfl rfl

private theorem recording_attempt {α : Type} (f : Call Host α) :
    Moves (Keeps (Recording exec id before)) (attempt (call f)) :=
  fun _ h => recording_of_kept h rfl rfl

private theorem recording_observe (resource : Resource) :
    Moves (Keeps (Recording exec id before)) (emit (.observe resource) : Exec Host Unit) := by
  intro w h
  refine recording_of_same h (.inr ⟨_, rfl, rfl⟩) fun dir hdir => ⟨dir, hdir, fun _ => rfl⟩

private theorem recording_write_applied : Moves (Keeps (Recording exec id before)) (write_applied exec resource op.id) :=
  fun _ h => recording_of_kept h rfl rfl

private theorem recording_in_operation {change : OperationDir → OperationDir}
    (hchange : ∀ dir workspace, (change dir).content workspace = dir.content workspace) :
    Moves (Keeps (Recording exec id before)) (in_operation id change : Exec Host Unit) := by
  intro w h
  refine recording_of_same h (.inl rfl) fun dir hdir => ⟨change dir, ?_, hchange dir⟩
  change (w.operations.insert id (change ((w.operations.lookup id).getD {}))).lookup id = _
  rw [AList.lookup_insert, hdir, Option.getD_some]

private theorem recording_ensure_workspace {workspace : Workspace} (hid : workspace.operation_id = id) :
    Moves (Keeps (Recording exec id before)) (ensure_workspace workspace : Exec Host Unit) := by
  rw [ensure_workspace, hid]
  apply recording_in_operation
  intro dir other
  split
  · rfl
  · next hnew =>
    rw [OperationDir.content, OperationDir.content]
    by_cases hsame : other = workspace
    · rw [hsame, AList.lookup_insert, AList.lookup_eq_none.mpr hnew]
      rfl
    · rw [AList.lookup_insert_ne hsame]

private theorem recording_write_checkpoint {workspace : Workspace} {cp : Checkpoint} (hid : workspace.operation_id = id)
    (hkind : (exec.registry cp.resource_id.kind).isSome = true) :
    Moves (Keeps (Recording exec id before)) (write_checkpoint workspace cp : Exec Host Unit) := by
  rintro w ⟨new, hnew, ⟨dir, hlookup, hmatches⟩, hregistered⟩
  have hrecorded : recorded (new ++ [.record workspace cp]) = recorded new ++ [(workspace, cp)] := List.filterMap_append
  refine ⟨new ++ [.record workspace cp], ?_, ⟨{ dir with workspaces := dir.workspaces.insert workspace (some (.ok cp)) },
    ?_, ?_⟩, ?_⟩
  · change w.events ++ [_] = _
    rw [hnew, List.append_assoc]
  · change (w.operations.insert workspace.operation_id _).lookup id = _
    rw [hid, AList.lookup_insert, hlookup]
    rfl
  · intro other
    rw [hrecorded, last_recorded_concat, OperationDir.content]
    by_cases hsame : workspace = other
    · rw [if_pos hsame, hsame, AList.lookup_insert]
      rfl
    · rw [if_neg hsame, AList.lookup_insert_ne (Ne.symm hsame)]
      exact hmatches other
  · rw [hrecorded]
    intro entry hentry
    obtain hold | hadded := List.mem_append.mp hentry
    · exact hregistered entry hold
    · rw [List.mem_singleton.mp hadded]
      exact hkind

private theorem recording_run_step (hregistry : (exec.registry resource.kind).isSome = true) (step : Step) :
    Moves (Keeps (Recording exec op.id before)) (run_step exec provider resource op step) := by
  rw [run_step]
  refine moves_bind (recording_ensure_workspace rfl) fun _ => moves_bind (recording_draw _) fun started_at => ?_
  refine moves_bind (recording_attempt _) fun pre_data => ?_
  cases pre_data with
  | error e => exact moves_bind (recording_draw _) fun _ => moves_pure _
  | ok pre_data =>
    have hcheckpoint : Yields (fun cp : Checkpoint => cp.resource_id = resource.id)
        (Checkpoint.with_spec exec resource.id op.id pre_data resource.spec) :=
      yields_bind _ fun _ => yields_bind _ fun _ => yields_pure rfl
    have hdraws : Moves (Keeps (Recording exec op.id before))
        (Checkpoint.with_spec exec resource.id op.id pre_data resource.spec) :=
      moves_bind (recording_draw _) fun _ => moves_bind (recording_draw _) fun _ => moves_pure _
    refine moves_bind_of hdraws hcheckpoint fun cp hcp => ?_
    have hkind : (exec.registry cp.resource_id.kind).isSome = true := by rwa [hcp]
    refine moves_bind (recording_write_checkpoint rfl hkind) fun _ => moves_bind (recording_attempt _) fun result => ?_
    exact moves_bind (recording_draw _) fun _ => moves_pure _

private theorem recording_run_steps (hregistry : (exec.registry resource.kind).isSome = true) (steps : List Step)
    (records : List StepRecord) :
    Moves (Keeps (Recording exec op.id before)) (run_steps exec provider resource op steps records) := by
  induction steps generalizing records with
  | nil => exact moves_pure _
  | cons step steps ih =>
    rw [run_steps]
    refine moves_bind (recording_run_step hregistry step) fun outcome => ?_
    obtain ⟨record, failure⟩ := outcome
    cases failure with
    | some error => exact moves_pure _
    | none => exact ih _

private theorem recording_require (kind : String) : Moves (Keeps (Recording exec id before)) (require exec kind) := by
  rw [require]
  split
  · exact moves_pure _
  · exact moves_throw _

private theorem registered_require (kind : String) :
    Yields (fun _ => (exec.registry kind).isSome = true) (require exec kind) := by
  intro w provider after hrun
  rw [(perform_require_eq_ok_iff.mp hrun).1]
  rfl

private theorem recording_apply_one : Moves (Keeps (Recording exec op.id before)) (apply_one exec resource op) := by
  refine moves_bind_of (recording_require _) (registered_require _) fun provider hregistry => ?_
  refine moves_bind (recording_observe _) fun _ => moves_bind (recording_call _) fun seen => moves_bind (recording_call _) fun diff => ?_
  split
  · exact moves_bind recording_write_applied fun _ => moves_pure _
  · refine moves_bind (recording_call _) fun steps => moves_bind (recording_run_steps hregistry _ _) fun outcome => ?_
    obtain ⟨records, last_error⟩ := outcome
    cases last_error with
    | some error => exact moves_pure _
    | none =>
      refine moves_bind (recording_call _) fun verify => ?_
      split
      · exact moves_bind recording_write_applied fun _ => moves_pure _
      · exact moves_pure _

private theorem recording_apply_all (resources : List Resource) (items : List ApplyItem) (failed changed : Bool) :
    Moves (Keeps (Recording exec op.id before)) (apply_all exec op resources items failed changed) := by
  induction resources generalizing items failed changed with
  | nil => exact moves_pure _
  | cons resource resources ih => exact moves_bind recording_apply_one fun item => ih _ _ _

private theorem lookup_of_erase {dirs : AList fun _ : Ulid => OperationDir} {expired : List Ulid} {dir : OperationDir}
    (h : (expired.foldl (fun dirs id => dirs.erase id) dirs).lookup id = some dir) : dirs.lookup id = some dir := by
  induction expired generalizing dirs with
  | nil => exact h
  | cons other expired ih =>
    have herased := ih h
    by_cases hsame : id = other
    · rw [hsame, AList.lookup_erase] at herased
      cases herased
    · rwa [AList.lookup_erase_ne hsame] at herased

private theorem finish_apply_kept {items : List ApplyItem} {failed changed : Bool} {mid : World Host}
    (h : Recording exec op.id before mid) :
    ∃ (kept : World Host) (expired : List Ulid), Recording exec op.id before kept ∧
      (perform (finish_apply exec op items failed changed) mid).2 =
        { kept with operations := List.foldl (fun dirs id => dirs.erase id) kept.operations expired } := by
  have hfiles (finished : Operation) : Moves (Keeps (Recording exec op.id before)) (do
      in_operation op.id fun dir => { dir with operation := some finished }
      in_operation op.id fun dir => { dir with apply_result := some ⟨finished, items⟩ } : Exec Host Unit) :=
    moves_bind (recording_in_operation fun _ _ => rfl) fun _ => recording_in_operation fun _ _ => rfl
  have hwritten : Moves (Keeps (Recording exec op.id before)) (do
      let finished_at ← draw exec.now
      let finished : Operation := { op with finished_at := some finished_at, status := final_status failed changed }
      in_operation op.id fun dir => { dir with operation := some finished }
      in_operation op.id fun dir => { dir with apply_result := some ⟨finished, items⟩ } : Exec Host Unit) :=
    moves_bind (recording_draw exec.now) fun finished_at => hfiles _
  exact ⟨_, _, hwritten mid h, rfl⟩

/-- The directory of an apply, when it is still there afterwards, holds what the apply has recorded. -/
theorem apply_recorded {exec : Executor Host} {resources : List Resource} {w after : World Host}
    {result : Except Error ApplyResult} {dir : OperationDir} (hrun : perform (apply exec resources) w = (result, after))
    (hnew : w.operations.lookup (exec.ulid w.drawn) = none) (hdir : after.operations.lookup (exec.ulid w.drawn) = some dir) :
    ∃ new, after.events = w.events ++ new ∧ Matches dir (recorded new) ∧
      ∀ entry ∈ recorded new, (exec.registry entry.2.resource_id.kind).isSome = true := by
  have hstart : Recording exec (started_operation exec w).id w.events (started exec w) := by
    refine ⟨[], (List.append_nil _).symm, ⟨{}, ?_, fun workspace => ?_⟩, by simp [recorded]⟩
    · rw [started, started_operation, AList.lookup_insert, hnew]
      rfl
    · rfl
  have hloop := @recording_apply_all Host exec (started_operation exec w) w.events resources [] false false (started exec w) hstart
  rw [perform_apply, perform_bind] at hrun
  rcases hloop_run : perform (apply_all exec (started_operation exec w) resources [] false false) (started exec w) with
    ⟨e | ⟨items, failed, changed⟩, mid⟩
  · rw [hloop_run] at hloop hrun
    obtain ⟨new, hevents, ⟨dir', hlookup, hmatches⟩, hregistered⟩ := hloop
    obtain ⟨-, rfl⟩ := Prod.mk.inj hrun
    have hsame : dir' = dir := Option.some.inj (hlookup.symm.trans hdir)
    exact ⟨new, hevents, hsame ▸ hmatches, hregistered⟩
  · rw [hloop_run] at hloop hrun
    obtain ⟨kept, expired, ⟨new, hevents, ⟨dir', hlookup, hmatches⟩, hregistered⟩, hafter⟩ :=
      @finish_apply_kept Host exec (started_operation exec w) w.events items failed changed mid hloop
    simp only at hrun
    rw [hrun, show (result, after).2 = after from rfl] at hafter
    have hfinal : after.events = kept.events := by rw [hafter]
    rw [hafter] at hdir
    have hfound : kept.operations.lookup (exec.ulid w.drawn) = some dir := lookup_of_erase hdir
    have hsame : dir' = dir := Option.some.inj (hlookup.symm.trans hfound)
    exact ⟨new, hfinal.trans hevents, hsame ▸ hmatches, hregistered⟩

end Apply

section Stored

variable {dir : OperationDir} {entries : List (Workspace × Checkpoint)}

/-- The checkpoint of an entry that has one. -/
def stored_entry : Workspace × Option (Except Error Checkpoint) → Option (Workspace × Checkpoint)
  | (workspace, some (.ok cp)) => some (workspace, cp)
  | _ => none

private theorem mem_entries_iff {workspace : Workspace} {content : Option (Except Error Checkpoint)} :
    (workspace, content) ∈ dir.entries ↔ dir.workspaces.lookup workspace = some content := by
  rw [OperationDir.entries, List.mem_map]
  have hlookup := @AList.mem_lookup_iff _ _ _ workspace content dir.workspaces
  rw [Option.mem_def] at hlookup
  rw [hlookup]
  constructor
  · rintro ⟨⟨_, _⟩, hentry, heq⟩
    obtain ⟨rfl, rfl⟩ := Prod.mk.inj heq
    exact hentry
  · exact fun hentry => ⟨⟨workspace, content⟩, hentry, rfl⟩

private theorem entries_keys_nodup : (dir.entries.map Prod.fst).Nodup := by
  have hkeys : dir.entries.map Prod.fst = dir.workspaces.keys := by
    rw [OperationDir.entries, List.map_map]
    rfl
  rw [hkeys]
  exact dir.workspaces.keys_nodup

/-- What reads back is what has been recorded. -/
private theorem mem_stored_iff (h : Matches dir entries) {workspace : Workspace} {cp : Checkpoint} :
    (workspace, cp) ∈ dir.entries.filterMap stored_entry ↔ last_recorded entries workspace = some cp := by
  have hcontent := h workspace
  rw [OperationDir.content] at hcontent
  rw [List.mem_filterMap]
  constructor
  · rintro ⟨⟨other, content⟩, hentry, hstored⟩
    obtain ⟨rfl, rfl⟩ : other = workspace ∧ content = some (.ok cp) := by
      unfold stored_entry at hstored
      split at hstored
      · next heq =>
        obtain ⟨rfl, rfl⟩ := Prod.mk.inj heq
        obtain ⟨rfl, rfl⟩ := Prod.mk.inj (Option.some.inj hstored)
        exact ⟨rfl, rfl⟩
      · cases hstored
    rw [mem_entries_iff.mp hentry] at hcontent
    cases hlast : last_recorded entries other with
    | none => simp [hlast] at hcontent
    | some found =>
      rw [hlast] at hcontent
      injection hcontent with hcontent
      injection hcontent with hcontent
      rw [hcontent]
  · intro hlast
    rw [hlast] at hcontent
    refine ⟨(workspace, some (.ok cp)), mem_entries_iff.mpr ?_, rfl⟩
    exact Option.join_eq_some_iff.mp hcontent

private theorem stored_keys_nodup {listed : List (Workspace × Option (Except Error Checkpoint))}
    (h : (listed.map Prod.fst).Nodup) : ((listed.filterMap stored_entry).map Prod.fst).Nodup := by
  refine List.Nodup.sublist ?_ h
  induction listed with
  | nil => exact List.Sublist.slnil
  | cons entry listed ih =>
    have hrest := ih (List.nodup_cons.mp h).2
    obtain ⟨workspace, _ | e | cp⟩ := entry
    · exact hrest.cons _
    · exact hrest.cons _
    · exact hrest.cons_cons _

/-- Every checkpoint can be read, in the order in which the workspaces are listed. -/
private theorem read_checkpoints_eq {listed : List (Workspace × Option (Except Error Checkpoint))}
    (h : ∀ workspace e, (workspace, some (.error e)) ∉ listed) :
    read_checkpoints listed = .ok (listed.filterMap stored_entry) := by
  induction listed with
  | nil => rfl
  | cons entry listed ih =>
    have hrest := ih fun workspace e hmem => h workspace e (List.mem_cons_of_mem _ hmem)
    obtain ⟨workspace, _ | e | cp⟩ := entry
    · exact hrest
    · exact absurd List.mem_cons_self (h workspace e)
    · rw [read_checkpoints, hrest]
      rfl

private theorem no_unreadable (h : Matches dir entries) (workspace : Workspace) (e : Error) :
    (workspace, some (.error e)) ∉ dir.entries := by
  intro hentry
  have hcontent := h workspace
  rw [OperationDir.content, mem_entries_iff.mp hentry] at hcontent
  cases hlast : last_recorded entries workspace with
  | none => simp [hlast] at hcontent
  | some found => simp [hlast] at hcontent

end Stored

/-- The calls of the providers for the checkpoints, in order, with whether each was done. -/
def rolled_back (entries : List (Workspace × Checkpoint)) (dones : List Bool) : List Event :=
  List.zipWith (fun entry done => .rollback (synthesize_resource entry.2) entry.2 entry.1 done) entries dones

/-- The checkpoint of a call. -/
def rollback_call : Event → Option (Workspace × Checkpoint)
  | .rollback _ cp workspace _ => some (workspace, cp)
  | _ => none

theorem rolled_back_calls {entries : List (Workspace × Checkpoint)} {dones : List Bool}
    (h : dones.length = entries.length) : (rolled_back entries dones).filterMap rollback_call = entries := by
  induction entries generalizing dones with
  | nil => simp [rolled_back]
  | cons entry entries ih =>
    cases dones with
    | nil => cases h
    | cons done dones =>
      rw [rolled_back, List.zipWith_cons_cons, List.filterMap_cons]
      exact congrArg (entry :: ·) (ih (Nat.succ.inj h))

/-- The loop calls the provider of every checkpoint, whatever fails. -/
theorem rollback_all_spec {entries : List (Workspace × Checkpoint)} {errors : List String} {w : World Host}
    (h : ∀ entry ∈ entries, (exec.registry entry.2.resource_id.kind).isSome = true) :
    ∃ failures after dones, perform (rollback_all exec entries errors) w = (.ok failures, after) ∧
      dones.length = entries.length ∧ after.events = w.events ++ rolled_back entries dones ∧
      (failures.isEmpty = false ↔ errors.isEmpty = false ∨ false ∈ dones) := by
  induction entries generalizing errors w with
  | nil => exact ⟨errors, w, [], rfl, rfl, (List.append_nil _).symm, by simp⟩
  | cons entry entries ih =>
    obtain ⟨hfirst, hrest⟩ := List.forall_mem_cons.mp h
    obtain ⟨workspace, cp⟩ := entry
    obtain ⟨provider, hprovider⟩ := Option.isSome_iff_exists.mp hfirst
    have hregistry : exec.registry (synthesize_resource cp).kind = some provider := hprovider
    rw [rollback_all]
    simp only [hregistry]
    rw [perform_bind_ok (perform_attempt _ _), perform_bind_ok (perform_emit _ _), perform_call]
    rcases hresult : provider.rollback (synthesize_resource cp) cp workspace w.host with ⟨e | u, host⟩
    · obtain ⟨failures, after, dones, hrun, hlength, hevents, herrors⟩ := @ih
        (errors ++ [(synthesize_resource cp).id.to_string ++ ": " ++ e.to_string]) { w with
          host, events := w.events ++ [.rollback (synthesize_resource cp) cp workspace false] } hrest
      refine ⟨failures, after, false :: dones, hrun, by rw [List.length_cons, hlength, List.length_cons], ?_, ?_⟩
      · rw [hevents, List.append_assoc]
        rfl
      · rw [herrors]
        simp
    · obtain ⟨failures, after, dones, hrun, hlength, hevents, herrors⟩ := @ih errors { w with
          host, events := w.events ++ [.rollback (synthesize_resource cp) cp workspace true] } hrest
      refine ⟨failures, after, true :: dones, hrun, by rw [List.length_cons, hlength, List.length_cons], ?_, ?_⟩
      · rw [hevents, List.append_assoc]
        rfl
      · rw [herrors]
        simp

/-- The rollback calls the provider for each of the checkpoints once, in reverse
order, and fails when one of them could not be rolled back. -/
def Reverses (exec : Executor Host) (listing : Listing) (id : Ulid) (entries : List (Workspace × Checkpoint))
    (later : World Host) : Prop :=
  ∃ dones : List Bool, dones.length = entries.length ∧
    (perform (rollback exec listing id) later).2.events = later.events ++ rolled_back entries.reverse dones ∧
    ((∃ e, (perform (rollback exec listing id) later).1 = .error e) ↔ false ∈ dones)

/-- A rollback of a directory that can be read goes through its checkpoints, newest id first. -/
theorem rollback_spec {listing : Listing} {id : Ulid} {later : World Host} {dir : OperationDir}
    {found : List (Workspace × Checkpoint)} (hdir : later.operations.lookup id = some dir)
    (hread : read_checkpoints (listing dir.entries) = .ok found)
    (h : ∀ entry ∈ found, (exec.registry entry.2.resource_id.kind).isSome = true) :
    ∃ dones : List Bool, dones.length = found.length ∧
      (perform (rollback exec listing id) later).2.events =
        later.events ++ rolled_back (newest_checkpoints_first found) dones ∧
      ((∃ e, (perform (rollback exec listing id) later).1 = .error e) ↔ false ∈ dones) := by
  have hperm : (newest_checkpoints_first found).Perm found := undo.newest_first_perm found
  obtain ⟨failures, after, dones, hrun, hlength, hevents, herrors⟩ :=
    @rollback_all_spec Host exec (newest_checkpoints_first found) [] later fun entry hentry => h entry (hperm.mem_iff.mp hentry)
  have hrollback : perform (rollback exec listing id) later =
      (if failures.isEmpty then .ok () else .error (rollback_failed failures), after) := by
    rw [rollback, perform_bind_ok (perform_get _)]
    simp only [hdir, hread]
    rw [perform_bind_ok hrun]
    split
    · rfl
    · rfl
  refine ⟨dones, hlength.trans hperm.length_eq, by rw [hrollback, hevents], ?_⟩
  rw [hrollback]
  simp only [List.isEmpty_nil, Bool.true_eq_false, false_or] at herrors
  rw [← herrors]
  cases failures.isEmpty <;> simp

/-- The checkpoints that an apply between the two worlds has recorded, in order. -/
def recorded_since (w after : World Host) : List (Workspace × Checkpoint) :=
  recorded (after.events.drop w.events.length)

section Listings

variable {dir : OperationDir} {entries : List (Workspace × Checkpoint)} {listing : Listing}

private theorem reads_of_listing (hmatches : Matches dir entries) (hlisting : (listing dir.entries).Perm dir.entries) :
    read_checkpoints (listing dir.entries) = .ok ((listing dir.entries).filterMap stored_entry) :=
  read_checkpoints_eq fun workspace e hmem => no_unreadable hmatches workspace e (hlisting.mem_iff.mp hmem)

private theorem entry_of_stored {entry : Workspace × Option (Except Error Checkpoint)} {found : Workspace × Checkpoint}
    (h : stored_entry entry = some found) : entry = (found.1, some (.ok found.2)) := by
  obtain ⟨workspace, _ | e | cp⟩ := entry
  · cases h
  · cases h
  · rw [← Option.some.inj h]

private theorem filter_stored (listed : List (Workspace × Option (Except Error Checkpoint))) :
    listed.filter (fun entry => (stored_entry entry).isSome) =
      (listed.filterMap stored_entry).map fun entry => (entry.1, some (.ok entry.2)) := by
  induction listed with
  | nil => rfl
  | cons entry listed ih =>
    cases hstored : stored_entry entry with
    | none => simp [hstored, ih]
    | some found => simp [hstored, ih, ← entry_of_stored hstored]

/-- The checkpoints can be listed in any order. -/
private theorem exists_listing {listed : List (Workspace × Checkpoint)}
    (h : listed.Perm (dir.entries.filterMap stored_entry)) :
    ∃ listing : Listing, (listing dir.entries).Perm dir.entries ∧
      (listing dir.entries).filterMap stored_entry = listed := by
  have hrest : (dir.entries.filter fun entry => !(stored_entry entry).isSome).filterMap stored_entry = [] := by
    rw [List.filterMap_eq_nil_iff]
    intro entry hentry
    simpa using (List.mem_filter.mp hentry).2
  refine ⟨fun _ => listed.map (fun entry => (entry.1, some (.ok entry.2))) ++
    dir.entries.filter fun entry => !(stored_entry entry).isSome, ?_, ?_⟩
  · refine List.Perm.trans (List.Perm.append_right _ (h.map _)) ?_
    rw [← filter_stored]
    exact List.filter_append_perm _ _
  · rw [List.filterMap_append, hrest, List.append_nil, List.filterMap_map]
    have hsome : (stored_entry ∘ fun entry : Workspace × Checkpoint => (entry.1, some (.ok entry.2))) = some := rfl
    rw [hsome, List.filterMap_some]

end Listings

/-- A rollback of an apply whose directory is as the apply has left it reverses
the apply, in whatever order the file system lists the checkpoints, exactly when
no two checkpoints were recorded in one workspace and the ids of the checkpoints
ascend in the order in which they were recorded. -/
theorem rollback_reverses_iff {exec : Executor Host} {resources : List Resource} {w after later : World Host}
    {result : Except Error ApplyResult} {dir : OperationDir} (hrun : perform (apply exec resources) w = (result, after))
    (hnew : w.operations.lookup (exec.ulid w.drawn) = none) (hdir : after.operations.lookup (exec.ulid w.drawn) = some dir)
    (hlater : later.operations.lookup (exec.ulid w.drawn) = some dir) :
    (∀ listing : Listing, (listing dir.entries).Perm dir.entries →
        Reverses exec listing (exec.ulid w.drawn) (recorded_since w after) later) ↔
      ((recorded_since w after).map Prod.fst).Nodup ∧
        (recorded_since w after).Pairwise fun a b => a.2.id < b.2.id := by
  obtain ⟨new, hevents, hmatches, hregistered⟩ := apply_recorded hrun hnew hdir
  have hsince : recorded_since w after = recorded new := by
    rw [recorded_since, hevents, List.drop_left]
  rw [hsince]
  have hstored : ∀ entry ∈ dir.entries.filterMap stored_entry, entry ∈ recorded new := by
    intro entry hentry
    obtain ⟨found, hfound, hkey⟩ := Option.map_eq_some_iff.mp ((mem_stored_iff hmatches).mp hentry)
    have hmem : found ∈ recorded new := List.mem_reverse.mp (List.mem_of_find?_eq_some hfound)
    have hworkspace : found.1 = entry.1 := by simpa using List.find?_some hfound
    have heq : found = entry := Prod.ext hworkspace hkey
    rwa [← heq]
  -- what a rollback does under a listing
  have hspec (listing : Listing) (hlisting : (listing dir.entries).Perm dir.entries) :=
    @rollback_spec Host exec listing _ later dir _ hlater (reads_of_listing hmatches hlisting) fun entry hentry =>
      hregistered entry (hstored entry ((hlisting.filterMap _).mem_iff.mp hentry))
  have hcalls (listing : Listing) (hlisting : (listing dir.entries).Perm dir.entries)
      (hreverses : Reverses exec listing (exec.ulid w.drawn) (recorded new) later) :
      newest_checkpoints_first ((listing dir.entries).filterMap stored_entry) = (recorded new).reverse := by
    obtain ⟨dones, hlength, hdone, -⟩ := hreverses
    obtain ⟨dones', hlength', hdone', -⟩ := hspec listing hlisting
    have hsame := List.append_cancel_left (hdone'.symm.trans hdone)
    have hperm : (newest_checkpoints_first ((listing dir.entries).filterMap stored_entry)).Perm
        ((listing dir.entries).filterMap stored_entry) := undo.newest_first_perm _
    have hcall := congrArg (List.filterMap rollback_call) hsame
    rwa [rolled_back_calls (hlength'.trans hperm.length_eq.symm), rolled_back_calls (by rw [hlength, List.length_reverse])]
      at hcall
  constructor
  · intro hall
    have hfirst := hcalls id (List.Perm.refl _) (hall id (List.Perm.refl _))
    have hperm : (recorded new).Perm (dir.entries.filterMap stored_entry) := by
      refine (List.reverse_perm _).symm.trans ?_
      rw [← hfirst]
      exact undo.newest_first_perm _
    have hnodup : ((recorded new).map Prod.fst).Nodup :=
      (hperm.map Prod.fst).nodup_iff.mpr (stored_keys_nodup entries_keys_nodup)
    refine ⟨hnodup, (undo.newest_first_reverses_iff hnodup.of_map).mp fun listed hlisted => ?_⟩
    obtain ⟨listing, hlisting, hlisted_eq⟩ := exists_listing (hlisted.trans hperm)
    rw [← hlisted_eq]
    exact hcalls listing hlisting (hall listing hlisting)
  · rintro ⟨hnodup, hascending⟩ listing hlisting
    have hperm : (dir.entries.filterMap stored_entry).Perm (recorded new) := by
      refine (List.perm_ext_iff_of_nodup (stored_keys_nodup entries_keys_nodup).of_map hnodup.of_map).mpr fun entry => ?_
      rw [mem_stored_iff hmatches, last_recorded_eq_some_iff hnodup]
    obtain ⟨dones, hlength, hdone, hfailed⟩ := hspec listing hlisting
    have hfound := (hlisting.filterMap stored_entry).trans hperm
    have hreversed : newest_checkpoints_first ((listing dir.entries).filterMap stored_entry) = (recorded new).reverse :=
      undo.newest_first_of_perm hascending hfound
    rw [hreversed] at hdone
    exact ⟨dones, hlength.trans hfound.length_eq, hdone, hfailed⟩

section Samples

/-- A resource takes two steps. -/
def two_steps : Provider Unit where
  observe _ _ := (.ok ⟨false, .null, []⟩, ())
  diff _ _ _ := (.ok ⟨.Create, [], [], true⟩, ())
  plan _ _ _ :=
    (.ok [⟨1, "file.write", "write the file", true, .null, .Pending, none, none⟩,
      ⟨2, "file.chmod", "set its mode", true, .null, .Pending, none, none⟩], ())
  pre_apply _ _ _ _ := (.ok .null, ())
  apply _ _ _ _ := (.ok ⟨.Succeeded, "done", .null, none⟩, ())
  verify _ _ := (.ok .Match, ())
  rollback _ _ _ _ := (.ok (), ())

/-- All ids are drawn in one millisecond, with descending random parts. -/
def hasty_executor : Executor Unit where
  registry kind := if kind = "file" then some two_steps else none
  state_dir := "/var/lib/iac-agent"
  actor := "agent"
  sha256_hex _ := ""
  ulid n := Fin.ofNat _ (1777593600000 * 2 ^ 80 + (100 - n))
  now _ := ⟨0, jiff.year_zero_in_range⟩

def hasty_start : World Unit := { host := () }

def hasty_apply : Except Error ApplyResult × World Unit := perform (apply hasty_executor [sample_file "a"]) hasty_start

private theorem hasty_run :
    perform (apply hasty_executor [sample_file "a"]) hasty_start = (hasty_apply.1, hasty_apply.2) := by
  rw [hasty_apply]

private theorem hasty_new : hasty_start.operations.lookup (hasty_executor.ulid hasty_start.drawn) = none :=
  AList.lookup_empty _

private theorem hasty_dir : ∃ dir, hasty_apply.2.operations.lookup (hasty_executor.ulid hasty_start.drawn) = some dir :=
  Option.isSome_iff_exists.mp (by decide +kernel)

theorem hasty_rollback_decides : ∃ dir, hasty_apply.2.operations.lookup (hasty_executor.ulid hasty_start.drawn) = some dir ∧
    ((∀ listing : Listing, (listing dir.entries).Perm dir.entries →
        Reverses hasty_executor listing (hasty_executor.ulid hasty_start.drawn) (recorded_since hasty_start hasty_apply.2)
          hasty_apply.2) ↔
      ((recorded_since hasty_start hasty_apply.2).map Prod.fst).Nodup ∧
        (recorded_since hasty_start hasty_apply.2).Pairwise fun a b => a.2.id < b.2.id) := by
  obtain ⟨dir, hdir⟩ := hasty_dir
  exact ⟨dir, hdir, rollback_reverses_iff hasty_run hasty_new hdir hdir⟩

/-- The first step is rolled back before the second. -/
theorem hasty_rollback_keeps_order : ¬ ∀ (exec : Executor Unit) (resources : List Resource) (w after later : World Unit)
    (result : Except Error ApplyResult) (dir : OperationDir), perform (apply exec resources) w = (result, after) →
      w.operations.lookup (exec.ulid w.drawn) = none → after.operations.lookup (exec.ulid w.drawn) = some dir →
      later.operations.lookup (exec.ulid w.drawn) = some dir →
        ∀ listing : Listing, (listing dir.entries).Perm dir.entries →
          Reverses exec listing (exec.ulid w.drawn) (recorded_since w after) later := by
  intro hall
  obtain ⟨dir, hdir⟩ := hasty_dir
  obtain ⟨dones, hlength, hevents, -⟩ := hall hasty_executor [sample_file "a"] hasty_start hasty_apply.2 hasty_apply.2
    hasty_apply.1 dir hasty_run hasty_new hdir hdir id (List.Perm.refl _)
  have hcalls := congrArg (List.filterMap rollback_call) hevents
  rw [List.filterMap_append, rolled_back_calls (by rw [hlength, List.length_reverse])] at hcalls
  have hids : ((perform (rollback hasty_executor id (hasty_executor.ulid hasty_start.drawn)) hasty_apply.2).2.events.filterMap
      rollback_call).map (fun entry => entry.2.id) ≠ (hasty_apply.2.events.filterMap rollback_call ++
        (recorded_since hasty_start hasty_apply.2).reverse).map fun entry => entry.2.id := by decide +kernel
  exact hids (congrArg _ hcalls)

end Samples

end iac_core.executor
