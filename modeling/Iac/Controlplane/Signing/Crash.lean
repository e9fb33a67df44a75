import Iac.Collections.Run
import Iac.Controlplane.Signing

open Script transition

namespace iac_controlplane.signing

section Sets

variable {dir : KeysDir} {state : SignerState} {key_id other : String} {secret : List UInt8}

theorem load_set_ok_iff : load_set dir = .ok state ↔ ∃ active_id, dir.active = some active_id ∧ active_id ≠ "" ∧
    (∀ file ∈ dir.files, file.2.length = 32) ∧ (dir.files.lookup active_id).isSome ∧ state = ⟨dir.files, active_id⟩ := by
  rw [load_set]
  cases hactive : dir.active with
  | none => simp
  | some active_id =>
    simp only [Option.some.injEq, exists_eq_left']
    split
    · next hempty => simp [String.isEmpty_iff.mp hempty]
    · next hnamed =>
      have hne : active_id ≠ "" := fun h => hnamed (by simp [h])
      split
      · next file hfile =>
        have hlength := List.find?_some hfile
        refine iff_of_false (by simp) ?_
        rintro ⟨-, hall, -⟩
        simp [hall file (List.mem_of_find?_eq_some hfile)] at hlength
      · next hfiles =>
        have hall : ∀ file ∈ dir.files, file.2.length = 32 := fun file hfile => by
          simpa using List.find?_eq_none.mp hfiles file hfile
        split
        · next hthere =>
          rw [Except.ok.injEq]
          exact ⟨fun h => ⟨hne, hall, hthere, h.symm⟩, fun h => h.2.2.2.symm⟩
        · next hmissing => exact iff_of_false (by simp) fun h => hmissing h.2.2.1

private theorem lookup_filter_ne (files : List (String × List UInt8)) (hne : other ≠ key_id) :
    (files.filter fun file => file.1 != key_id).lookup other = files.lookup other := by
  induction files with
  | nil => rfl
  | cons file files ih =>
    rw [List.filter_cons]
    by_cases hother : other = file.1
    · have hkept : (file.1 != key_id) = true := by simpa [← hother] using hne
      rw [if_pos hkept, List.lookup_cons, List.lookup_cons, hother]
      simp
    · have hskip : (other == file.1) = false := by simpa using hother
      split
      · rw [List.lookup_cons, List.lookup_cons, hskip]
        exact ih
      · rw [List.lookup_cons, hskip]
        exact ih

theorem lookup_write_key_file :
    (dir.write_key_file key_id secret).files.lookup other = if other = key_id then some secret else dir.files.lookup other := by
  rw [KeysDir.write_key_file, List.lookup_cons]
  by_cases hother : other = key_id
  · simp [hother]
  · have hskip : (other == key_id) = false := by simpa using hother
    rw [hskip, if_neg hother]
    exact lookup_filter_ne _ hother

theorem lookup_remove_file (hne : other ≠ key_id) : (dir.remove_file key_id).files.lookup other = dir.files.lookup other :=
  lookup_filter_ne _ hne

/-- A directory with another key file is loaded with the active key of before. -/
theorem load_write_key_file (hload : load_set dir = .ok state) (hlength : secret.length = 32) :
    load_set (dir.write_key_file key_id secret) = .ok ⟨(dir.write_key_file key_id secret).files, state.active_id⟩ := by
  obtain ⟨active_id, hactive, hnamed, hall, hthere, rfl⟩ := load_set_ok_iff.1 hload
  refine load_set_ok_iff.2 ⟨active_id, hactive, hnamed, ?_, ?_, rfl⟩
  · refine List.forall_mem_cons.mpr ⟨hlength, fun file hfile => hall file (List.mem_filter.mp hfile).1⟩
  · rw [lookup_write_key_file]
    split
    · rfl
    · exact hthere

/-- The pointer can name every key file. -/
theorem load_write_active_pointer (hlengths : ∀ file ∈ dir.files, file.2.length = 32) (hnamed : key_id ≠ "")
    (hthere : (dir.files.lookup key_id).isSome) :
    load_set (dir.write_active_pointer key_id) = .ok ⟨dir.files, key_id⟩ :=
  load_set_ok_iff.2 ⟨key_id, rfl, hnamed, hlengths, hthere, rfl⟩

theorem load_remove_file (hload : load_set dir = .ok state) (hne : key_id ≠ state.active_id) :
    load_set (dir.remove_file key_id) = .ok ⟨(dir.remove_file key_id).files, state.active_id⟩ := by
  obtain ⟨active_id, hactive, hnamed, hall, hthere, rfl⟩ := load_set_ok_iff.1 hload
  refine load_set_ok_iff.2 ⟨active_id, hactive, hnamed, fun file hfile => hall file (List.mem_filter.mp hfile).1, ?_, rfl⟩
  rw [lookup_remove_file (Ne.symm hne)]
  exact hthere

end Sets

section Calls

variable {disk : StateDir} {dir : KeysDir} {before : SignerState} {new : NewKey} {key_id : String}

theorem update_keys_dir (hdir : disk.keys_dir = some dir) (f : KeysDir → KeysDir) :
    (disk.update f).keys_dir = some (f dir) :=
  congrArg (Option.map f) hdir

/-- The directory can be loaded, with the keys that `before` has, save one that
is being retired, and with the active key of `before` or the new one. -/
def StillLoads (before : SignerState) (call : KeyCall) (disk : StateDir) : Prop :=
  ∃ dir after, disk.keys_dir = some dir ∧ load_set dir = .ok after ∧
    (∀ key_id secret, before.keys.lookup key_id = some secret → call ≠ .retire key_id → after.keys.lookup key_id = some secret) ∧
    (after.active_id = before.active_id ∨ ∃ new, call = .rotate new ∧ after.active_id = new.key_id)

theorem stillLoads_self (hdir : disk.keys_dir = some dir) (hload : load_set dir = .ok before) (call : KeyCall) :
    StillLoads before call disk :=
  ⟨dir, before, hdir, hload, fun _ _ hkey _ => hkey, .inl rfl⟩

theorem reload_always {P : StateDir → Prop} {context : Option String} (h : P disk) : (reload context).Always P disk := by
  rw [reload, always_get_bind]
  split
  · exact h
  · split <;> exact h

theorem run_reload {state : SignerState} (hdir : disk.keys_dir = some dir) (hload : load_set dir = .ok state)
    (context : Option String) : (reload context).run disk = (.ok state, disk) := by
  rw [reload, run_get_bind, hdir]
  simp only [hload]
  rfl

/-- The set is the one that the directory would be loaded as. -/
def LoadedAs (state : SignerState) (disk : StateDir) : Prop :=
  ∃ dir, disk.keys_dir = some dir ∧ load_set dir = .ok state

theorem load_rotated (hload : load_set dir = .ok before) (new : NewKey) :
    load_set ((dir.write_key_file new.key_id new.secret).write_active_pointer new.key_id) =
      .ok ⟨(dir.write_key_file new.key_id new.secret).files, new.key_id⟩ := by
  obtain ⟨_, -, -, hlengths, -⟩ := load_set_ok_iff.1 (load_write_key_file hload new.length)
  refine load_write_active_pointer hlengths new.named ?_
  rw [lookup_write_key_file, if_pos rfl]
  rfl

theorem rotate_run (hdir : disk.keys_dir = some dir) (hload : load_set dir = .ok before) :
    ∃ state t, (rotate new).run disk = (.ok state, t) ∧ LoadedAs state t := by
  have hrotated := update_keys_dir (update_keys_dir hdir fun dir => dir.write_key_file new.key_id new.secret)
    fun dir => dir.write_active_pointer new.key_id
  refine ⟨_, _, ?_, _, hrotated, load_rotated hload new⟩
  simp only [rotate, generate_and_persist, write_key_file, write_active_pointer, put_skipped, bind_assoc, pure_bind,
    run_get_bind, run_put_bind, if_neg new.plain]
  exact run_reload hrotated (load_rotated hload new) _

theorem retire_run (hdir : disk.keys_dir = some dir) (hload : load_set dir = .ok before) :
    (∃ e, (retire before key_id).run disk = (.error e, disk)) ∨
      ∃ state removed t, (retire before key_id).run disk = (.ok (state, removed), t) ∧ LoadedAs state t := by
  rw [retire]
  split
  · exact .inl ⟨_, rfl⟩
  · next hinactive =>
    right
    split
    · exact ⟨before, false, disk, rfl, dir, hdir, hload⟩
    · rw [run_get_bind]
      split
      · have hremoved := update_keys_dir hdir fun dir => dir.remove_file key_id
        have hreload := load_remove_file hload (Ne.symm hinactive)
        refine ⟨_, true, _, ?_, _, hremoved, hreload⟩
        rw [run_put_bind]
        exact run_bind_ok (run_reload hremoved hreload none)
      · exact ⟨before, true, disk, run_bind_ok (run_reload hdir hload none), dir, hdir, hload⟩

/-- Wherever a rotation is interrupted, the set can be loaded. -/
theorem rotate_always (hdir : disk.keys_dir = some dir) (hload : load_set dir = .ok before)
    (hfresh : dir.files.lookup new.key_id = none) : (rotate new).Always (StillLoads before (.rotate new)) disk := by
  obtain ⟨active_id, hactive, hnamed, hall, hthere, rfl⟩ := load_set_ok_iff.1 hload
  have hstart := stillLoads_self hdir hload (.rotate new)
  have hkept : ∀ other secret, dir.files.lookup other = some secret →
      (dir.write_key_file new.key_id new.secret).files.lookup other = some secret := by
    intro other secret hother
    rw [lookup_write_key_file, if_neg, hother]
    rintro rfl
    exact absurd (hfresh.symm.trans hother) (by simp)
  have hgenerated : StillLoads ⟨dir.files, active_id⟩ (.rotate new)
      (disk.update fun dir => dir.write_key_file new.key_id new.secret) :=
    ⟨_, _, update_keys_dir hdir _, load_write_key_file hload new.length, fun other secret hother _ => hkept other secret hother,
      .inl rfl⟩
  have hpointed : StillLoads ⟨dir.files, active_id⟩ (.rotate new)
      ((disk.update fun dir => dir.write_key_file new.key_id new.secret).update
        fun dir => dir.write_active_pointer new.key_id) :=
    ⟨_, _, update_keys_dir (update_keys_dir hdir _) _, load_rotated hload new,
      fun other secret hother _ => hkept other secret hother, .inr ⟨new, rfl, rfl⟩⟩
  simp only [rotate, generate_and_persist, write_key_file, write_active_pointer, put_skipped, bind_assoc, pure_bind,
    always_get_bind, if_neg new.plain, always_put_bind, id]
  exact ⟨hstart, hstart, hstart, hgenerated, hgenerated, reload_always hpointed⟩

/-- Wherever the removal of a key is interrupted, the set can be loaded. -/
theorem retire_always (hdir : disk.keys_dir = some dir) (hload : load_set dir = .ok before) :
    (retire before key_id).Always (StillLoads before (.retire key_id)) disk := by
  have hstart := stillLoads_self hdir hload (.retire key_id)
  rw [retire]
  split
  · exact hstart
  · next hinactive =>
    split
    · exact hstart
    · have hremoved : StillLoads before (.retire key_id) (disk.update fun dir => dir.remove_file key_id) := by
        have hreload := load_remove_file hload (Ne.symm hinactive)
        obtain ⟨active_id, hactive, hnamed, hall, hthere, rfl⟩ := load_set_ok_iff.1 hload
        refine ⟨_, _, update_keys_dir hdir _, hreload, fun other secret hother hcall => ?_, .inl rfl⟩
        rw [lookup_remove_file fun heq => hcall (congrArg KeyCall.retire heq.symm)]
        exact hother
      rw [always_get_bind]
      split
      · simp only [always_put_bind]
        exact ⟨hstart, always_bind (reload_always hremoved) fun _ _ h => h⟩
      · exact always_bind (reload_always hstart) fun _ _ h => h

/-- What `load_or_create` does without a directory of keys. -/
private def first_load (disk : StateDir) (new : NewKey) : Script StateDir String SignerState :=
  match disk.legacy_secret, disk.legacy_id with
  | some secret_bytes, some id_text => migrate secret_bytes id_text
  | _, _ => initialize_keys new

/-- `load_or_create` once the directory of the state is there. -/
private def load_body (new : NewKey) : Script StateDir String SignerState := do
  let disk ← get
  match disk.keys_dir with
  | some dir => reload (some ("loading key set from " ++ dir.path))
  | none => first_load disk new

private theorem load_or_create_eq (new : NewKey) : load_or_create new = (do
    let disk ← get
    if disk.present then load_body new
    else do
      put fun disk => { disk with present := true }
      load_body new) := by
  rw [load_or_create, create_state_dir, bind_assoc]
  congr 1
  funext disk
  split <;> rfl

/-- Starting the process on a set that is there leaves it. -/
theorem load_always (hdir : disk.keys_dir = some dir) (hload : load_set dir = .ok before) :
    (load_or_create new).Always (StillLoads before (.load_or_create new)) disk := by
  have hstart := stillLoads_self hdir hload (.load_or_create new)
  have hcreated : StillLoads before (.load_or_create new) { disk with present := true } :=
    stillLoads_self hdir hload (.load_or_create new)
  have hload_always (disk' : StateDir) (hdir' : disk'.keys_dir = some dir)
      (hstate : StillLoads before (.load_or_create new) disk') :
      (load_body new).Always (StillLoads before (.load_or_create new)) disk' := by
    rw [load_body, always_get_bind, hdir']
    exact reload_always hstate
  rw [load_or_create_eq, always_get_bind]
  split
  · exact hload_always disk hdir hstart
  · exact ⟨hstart, hload_always _ hdir hcreated⟩

end Calls

section First

variable {disk : StateDir} {new : NewKey} {key_id : String} {secret : List UInt8} {crash : Option Nat}

/-- No crash comes after the directory is made and before the pointer is. -/
def Whole (crash : Option Nat) : Prop := ∀ n, crash = some n → n = 0 ∨ 6 ≤ n

/-- The disk once it has a directory with one key. -/
def StateDir.founded (disk : StateDir) (key_id : String) (secret : List UInt8) : StateDir :=
  (disk.create_keys_dir.update fun dir => dir.write_key_file key_id secret).update fun dir => dir.write_active_pointer key_id

/-- The directory has one key, which is active. -/
def HasOne (key_id : String) (disk : StateDir) : Prop :=
  ∃ dir state, disk.keys_dir = some dir ∧ load_set dir = .ok state ∧ state.active_id = key_id

theorem founded_loads (hnone : disk.keys_dir = none) (hnamed : key_id ≠ "") (hlength : secret.length = 32) :
    ∃ dir, (disk.founded key_id secret).keys_dir = some dir ∧ load_set dir = .ok ⟨[(key_id, secret)], key_id⟩ := by
  refine ⟨((⟨disk.path ++ "/signing-keys", none, []⟩ : KeysDir).write_key_file key_id secret).write_active_pointer key_id,
    ?_, ?_⟩
  · have hcreated : disk.create_keys_dir.keys_dir = some ⟨disk.path ++ "/signing-keys", none, []⟩ := by
      rw [StateDir.create_keys_dir, hnone]
      rfl
    exact update_keys_dir (update_keys_dir hcreated _) _
  · refine load_write_active_pointer ?_ hnamed ?_
    · simp [KeysDir.write_key_file, hlength]
    · simp [lookup_write_key_file]

/-- The writes that make a directory with one key, and what comes after them. -/
private theorem found_outcome {α : Type} {rest : Script StateDir String α} {P : StateDir → Prop}
    (hplain : '/' ∉ key_id.toList) (hwhole : Whole crash) (hrest : rest.Always P (disk.founded key_id secret)) :
    ((do
      put StateDir.create_keys_dir
      write_key_file key_id secret
      write_active_pointer key_id
      rest).outcome crash disk).2 = disk ∨
    P ((do
      put StateDir.create_keys_dir
      write_key_file key_id secret
      write_active_pointer key_id
      rest).outcome crash disk).2 := by
  cases crash with
  | none =>
    right
    simp only [write_key_file, write_active_pointer, put_skipped, bind_assoc, outcome, run_put_bind, run_get_bind,
      if_neg hplain]
    exact hrest.run
  | some n =>
    obtain rfl | hmany := hwhole n rfl
    · left
      rfl
    · right
      obtain ⟨n, rfl⟩ := Nat.exists_eq_add_of_le' hmany
      simp only [write_key_file, write_active_pointer, put_skipped, bind_assoc, outcome_put_bind, outcome_get_bind,
        if_neg hplain]
      exact hrest.outcome (some n)

theorem migrate_outcome (hnone : disk.keys_dir = none) (hlength : secret.length = 32) (hnamed : key_id ≠ "")
    (hplain : '/' ∉ key_id.toList) (hwhole : Whole crash) :
    ((migrate secret (some key_id)).outcome crash disk).2 = disk ∨
      HasOne key_id ((migrate secret (some key_id)).outcome crash disk).2 := by
  obtain ⟨dir, hdir, hload⟩ := founded_loads hnone hnamed hlength
  have hmigrate : migrate secret (some key_id) = (do
      put StateDir.create_keys_dir
      write_key_file key_id secret
      write_active_pointer key_id
      reload none) := by
    rw [migrate, if_neg (not_not.mpr hlength)]
  rw [hmigrate]
  exact found_outcome hplain hwhole (reload_always ⟨dir, _, hdir, hload, rfl⟩)

/-- The last step of `initialize_keys`. -/
private def check_active (state : SignerState) : Script StateDir String SignerState :=
  match state.try_active_entry with
  | .error e => fail e
  | .ok _ => do
    put_skipped
    return state

theorem initialize_outcome (hnone : disk.keys_dir = none) (hwhole : Whole crash) :
    ((initialize_keys new).outcome crash disk).2 = disk ∨ HasOne new.key_id ((initialize_keys new).outcome crash disk).2 := by
  obtain ⟨dir, hdir, hload⟩ := founded_loads hnone new.named new.length
  have hone : HasOne new.key_id (disk.founded new.key_id new.secret) := ⟨dir, _, hdir, hload, rfl⟩
  have hfirst_start : initialize_keys new = (do
      put StateDir.create_keys_dir
      write_key_file new.key_id new.secret
      write_active_pointer new.key_id
      let state ← reload none
      check_active state) := by
    rw [initialize_keys, generate_and_persist]
    simp only [bind_assoc, pure_bind]
    rfl
  rw [hfirst_start]
  refine found_outcome new.plain hwhole (always_bind (reload_always hone) fun state t h => ?_)
  rw [check_active]
  split
  · exact h
  · exact ⟨h, h⟩

/-- The key that a first `load_or_create` makes active. -/
def StateDir.first_key (disk : StateDir) (new : NewKey) : String :=
  match disk.legacy_secret, disk.legacy_id with
  | some _, some (some key_id) => key_id
  | _, _ => new.key_id

/-- A legacy key, where there is one, has 32 bytes and an id that can name a file. -/
def StateDir.Readable (disk : StateDir) : Prop :=
  ∀ secret id_text, disk.legacy_secret = some secret → disk.legacy_id = some id_text →
    secret.length = 32 ∧ ∃ key_id, id_text = some key_id ∧ key_id ≠ "" ∧ '/' ∉ key_id.toList

private theorem first_load_outcome (hnone : disk.keys_dir = none) (hreadable : disk.Readable) (hwhole : Whole crash) :
    ((first_load disk new).outcome crash disk).2 = disk ∨
      HasOne (disk.first_key new) ((first_load disk new).outcome crash disk).2 := by
  rw [first_load, StateDir.first_key]
  cases hsecret : disk.legacy_secret with
  | none => exact initialize_outcome hnone hwhole
  | some secret =>
    cases hid : disk.legacy_id with
    | none => exact initialize_outcome hnone hwhole
    | some id_text =>
      obtain ⟨hlength, key_id, rfl, hnamed, hplain⟩ := hreadable secret id_text hsecret hid
      exact migrate_outcome hnone hlength hnamed hplain hwhole

private theorem first_load_run (hnone : disk.keys_dir = none) (hreadable : disk.Readable) :
    ∃ state t, (first_load disk new).run disk = (.ok state, t) ∧ LoadedAs state t ∧
      state.active_id = disk.first_key new := by
  have hfirst_start : ∃ state t, (initialize_keys new).run disk = (.ok state, t) ∧ LoadedAs state t ∧
      state.active_id = new.key_id := by
    obtain ⟨dir, hdir, hload⟩ := founded_loads hnone new.named new.length
    refine ⟨⟨[(new.key_id, new.secret)], new.key_id⟩, disk.founded new.key_id new.secret, ?_, ⟨dir, hdir, hload⟩, rfl⟩
    simp only [initialize_keys, generate_and_persist, write_key_file, write_active_pointer, put_skipped, bind_assoc,
      pure_bind, run_put_bind, run_get_bind, if_neg new.plain]
    refine (run_bind_ok (run_reload hdir hload none)).trans ?_
    have hentry : SignerState.try_active_entry ⟨[(new.key_id, new.secret)], new.key_id⟩ = .ok new.secret := by
      simp [SignerState.try_active_entry]
    rw [hentry]
    rfl
  rw [first_load, StateDir.first_key]
  cases hsecret : disk.legacy_secret with
  | none => exact hfirst_start
  | some secret =>
    cases hid : disk.legacy_id with
    | none => exact hfirst_start
    | some id_text =>
      obtain ⟨hlength, key_id, rfl, hnamed, hplain⟩ := hreadable secret id_text hsecret hid
      obtain ⟨dir, hdir, hload⟩ := founded_loads hnone hnamed hlength
      refine ⟨⟨[(key_id, secret)], key_id⟩, disk.founded key_id secret, ?_, ⟨dir, hdir, hload⟩, rfl⟩
      simp only [migrate, write_key_file, write_active_pointer, put_skipped, bind_assoc, run_put_bind, run_get_bind,
        if_neg hplain, if_neg (not_not.mpr hlength)]
      exact run_reload hdir hload none

/-- A crash in a first `load_or_create` comes before it makes the directory
of keys or after it has put the active pointer there. -/
def StateDir.Uninterrupted (disk : StateDir) (crash : Option Nat) : Prop :=
  let before := if disk.present then 0 else 1
  ∀ n, crash = some n → n ≤ before ∨ before + 6 ≤ n

private theorem load_body_eq (hnone : disk.keys_dir = none) :
    (load_body new).outcome crash disk = (first_load disk new).outcome crash disk := by
  rw [load_body, outcome_get_bind, hnone]

theorem load_first_outcome (hnone : disk.keys_dir = none) (hreadable : disk.Readable) (hcrash : disk.Uninterrupted crash) :
    ((load_or_create new).outcome crash disk).2.keys_dir = none ∨
      HasOne (disk.first_key new) ((load_or_create new).outcome crash disk).2 := by
  have hbody {disk' : StateDir} {crash' : Option Nat} (hnone' : disk'.keys_dir = none) (hreadable' : disk'.Readable)
      (hwhole : Whole crash') : ((load_body new).outcome crash' disk').2.keys_dir = none ∨
        HasOne (disk'.first_key new) ((load_body new).outcome crash' disk').2 := by
    rw [load_body_eq hnone']
    exact (first_load_outcome hnone' hreadable' hwhole).imp_left fun h => (congrArg StateDir.keys_dir h).trans hnone'
  rw [load_or_create_eq, outcome_get_bind]
  split
  · next hpresent =>
    refine hbody hnone hreadable fun n hn => ?_
    have hbounds := hcrash n hn
    rw [if_pos hpresent] at hbounds
    omega
  · next habsent =>
    cases crash with
    | none => exact @hbody { disk with present := true } none hnone hreadable fun n hn => absurd hn (by simp)
    | some n =>
      cases n with
      | zero => exact .inl hnone
      | succ n =>
        refine @hbody { disk with present := true } (some n) hnone hreadable fun m hm => ?_
        have hbounds := hcrash (n + 1) rfl
        rw [if_neg habsent] at hbounds
        obtain rfl := Option.some.inj hm
        omega

theorem load_first_run (hnone : disk.keys_dir = none) (hreadable : disk.Readable) :
    ∃ state t, (load_or_create new).run disk = (.ok state, t) ∧ LoadedAs state t ∧ state.active_id = disk.first_key new := by
  have hbody {disk' : StateDir} (hnone' : disk'.keys_dir = none) (hreadable' : disk'.Readable) :
      ∃ state t, (load_body new).run disk' = (.ok state, t) ∧ LoadedAs state t ∧ state.active_id = disk'.first_key new := by
    rw [load_body, run_get_bind, hnone']
    exact first_load_run hnone' hreadable'
  rw [load_or_create_eq, run_get_bind]
  split
  · exact hbody hnone hreadable
  · exact @hbody { disk with present := true } hnone hreadable

theorem load_run {dir : KeysDir} {before : SignerState} (hdir : disk.keys_dir = some dir) (hload : load_set dir = .ok before) :
    ∃ t, (load_or_create new).run disk = (.ok before, t) ∧ LoadedAs before t := by
  have hbody {disk' : StateDir} (hdir' : disk'.keys_dir = some dir) :
      ∃ t, (load_body new).run disk' = (.ok before, t) ∧ LoadedAs before t := by
    refine ⟨disk', ?_, dir, hdir', hload⟩
    rw [load_body, run_get_bind, hdir']
    exact run_reload hdir' hload _
  rw [load_or_create_eq, run_get_bind]
  split
  · exact hbody hdir
  · exact @hbody { disk with present := true } hdir

end First

section Runs

variable {server start : Server} {event : Event}

/-- The directory of keys can be loaded, as the set that the process holds if one runs. -/
structure Sound (server : Server) : Prop where
  loads : ∀ dir, server.disk.keys_dir = some dir → ∃ state, load_set dir = .ok state
  held : ∀ state, server.memory = some state → LoadedAs state server.disk

/-- No process runs, and a directory of keys can be loaded if there is one. -/
def Start (server : Server) : Prop :=
  server.memory = none ∧ ∀ dir, server.disk.keys_dir = some dir → ∃ state, load_set dir = .ok state

/-- The first start of a process is not interrupted while it makes the
directory of keys and finds a legacy key that is whole; the ids of new keys are new. -/
def Careful (server : Server) (event : Event) : Prop :=
  match event.call with
  | .load_or_create _ =>
    server.disk.keys_dir = none → server.disk.Readable ∧ server.disk.Uninterrupted event.crash
  | .rotate new => ∀ dir, server.disk.keys_dir = some dir → dir.files.lookup new.key_id = none
  | .retire _ => True

/-- The set that is on disk. -/
def StateDir.key_set (disk : StateDir) : Option SignerState :=
  disk.keys_dir.bind fun dir => (load_set dir).toOption

/-- What the next `load_or_create` finds after an event that may have been a crash. -/
structure Recovers (server : Server) (event : Event) (next : NewKey) (after : SignerState) : Prop where
  loaded : ((load_or_create next).run (server.after event).disk).1 = .ok after
  member : ∃ secret, after.keys.lookup after.active_id = some secret
  kept : ∀ before, server.disk.key_set = some before → ∀ key_id secret, before.keys.lookup key_id = some secret →
    event.call ≠ .retire key_id → after.keys.lookup key_id = some secret
  active : ∀ before, server.disk.key_set = some before →
    after.active_id = before.active_id ∨ ∃ new, event.call = .rotate new ∧ after.active_id = new.key_id
  first : server.disk.key_set = none → after.active_id = (server.after event).disk.first_key next ∨
    ∃ new, event.call = .load_or_create new ∧ after.active_id = server.disk.first_key new

theorem sound_of_start (h : Start server) : Sound server :=
  ⟨h.2, fun _ hstate => absurd (h.1.symm.trans hstate) (by simp)⟩

theorem LoadedAs.unique {disk : StateDir} {state : SignerState} {dir : KeysDir} {before : SignerState}
    (h : LoadedAs state disk) (hdir : disk.keys_dir = some dir) (hload : load_set dir = .ok before) : state = before := by
  obtain ⟨dir', hdir', hload'⟩ := h
  obtain rfl := Option.some.inj (hdir.symm.trans hdir')
  exact Except.ok.inj (hload'.symm.trans hload)

/-- What a call leaves on disk when there was a set. -/
theorem after_stillLoads {dir : KeysDir} {before : SignerState} (hsound : Sound server) (hdir : server.disk.keys_dir = some dir)
    (hload : load_set dir = .ok before) (hcareful : Careful server event) :
    StillLoads before event.call (server.after event).disk := by
  obtain ⟨call, crash⟩ := event
  cases call with
  | load_or_create new => exact (load_always hdir hload).outcome crash
  | rotate new =>
    rw [Server.after]
    cases hmemory : server.memory with
    | none => exact stillLoads_self hdir hload _
    | some held => exact (rotate_always hdir hload (hcareful dir hdir)).outcome crash
  | retire key_id =>
    rw [Server.after]
    cases hmemory : server.memory with
    | none => exact stillLoads_self hdir hload _
    | some held =>
      obtain rfl := (hsound.held held hmemory).unique hdir hload
      exact (retire_always hdir hload).outcome crash

/-- What a call leaves on disk when there was none. -/
theorem after_first (hsound : Sound server) (hnone : server.disk.keys_dir = none) (hcareful : Careful server event) :
    (server.after event).disk.keys_dir = none ∨
      ∃ new, event.call = .load_or_create new ∧ HasOne (server.disk.first_key new) (server.after event).disk := by
  have hstopped : server.memory = none := by
    cases hmemory : server.memory with
    | none => rfl
    | some held =>
      obtain ⟨dir, hdir, -⟩ := hsound.held held hmemory
      exact absurd (hnone.symm.trans hdir) (by simp)
  obtain ⟨call, crash⟩ := event
  cases call with
  | load_or_create new =>
    obtain ⟨hreadable, hcrash⟩ := hcareful hnone
    exact (load_first_outcome hnone hreadable hcrash).imp_right fun h => ⟨new, rfl, h⟩
  | rotate new | retire key_id =>
    rw [Server.after, hstopped]
    exact .inl hnone

private theorem settle_loaded {α : Type} {p : Script StateDir String α} {stored : α → SignerState} {before : Option SignerState}
    {crash : Option Nat} {disk : StateDir} (hok : ∀ a t, p.run disk = (.ok a, t) → LoadedAs (stored a) t)
    (herror : ∀ e t state, p.run disk = (.error e, t) → before = some state → LoadedAs state t) (state : SignerState)
    (hsettle : settle before stored (p.outcome crash disk).1 = some state) : LoadedAs state (p.outcome crash disk).2 := by
  generalize houtcome : p.outcome crash disk = outcome at hsettle
  obtain ⟨result, t⟩ := outcome
  match result with
  | none => exact absurd hsettle (by simp [settle])
  | some (.ok a) =>
    obtain rfl := Option.some.inj hsettle
    exact hok a t (outcome_eq_run houtcome)
  | some (.error e) => exact herror e t state (outcome_eq_run houtcome) hsettle

/-- What is in memory after a call is what is on disk. -/
theorem after_held (hsound : Sound server) (hcareful : Careful server event) :
    ∀ state, (server.after event).memory = some state → LoadedAs state (server.after event).disk := by
  intro state
  obtain ⟨call, crash⟩ := event
  cases call with
  | load_or_create new =>
    have hrun : ∃ state t, (load_or_create new).run server.disk = (.ok state, t) ∧ LoadedAs state t := by
      cases hdir : server.disk.keys_dir with
      | none =>
        obtain ⟨state, t, hrun, hloaded, -⟩ := @load_first_run server.disk new hdir (hcareful hdir).1
        exact ⟨state, t, hrun, hloaded⟩
      | some dir =>
        obtain ⟨before, hload⟩ := hsound.loads dir hdir
        obtain ⟨t, hrun, hloaded⟩ := @load_run server.disk new dir before hdir hload
        exact ⟨before, t, hrun, hloaded⟩
    obtain ⟨loaded, t, hrun, hloaded⟩ := hrun
    refine settle_loaded (fun a t' ha => ?_) (fun e t' state he hnone => absurd hnone (by simp)) state
    obtain ⟨hresult, rfl⟩ := Prod.mk.inj (hrun.symm.trans ha)
    exact Except.ok.inj hresult ▸ hloaded
  | rotate new =>
    rw [Server.after]
    cases hmemory : server.memory with
    | none => exact fun h => absurd (hmemory.symm.trans h) (by simp)
    | some held =>
      obtain ⟨dir, hdir, hload⟩ := hsound.held held hmemory
      obtain ⟨rotated, t, hrun, hloaded⟩ := @rotate_run server.disk dir held new hdir hload
      refine settle_loaded (fun a t' ha => ?_) (fun e t' state he _ => ?_) state
      · obtain ⟨hresult, rfl⟩ := Prod.mk.inj (hrun.symm.trans ha)
        exact Except.ok.inj hresult ▸ hloaded
      · exact absurd (hrun.symm.trans he) (by simp)
  | retire key_id =>
    rw [Server.after]
    cases hmemory : server.memory with
    | none => exact fun h => absurd (hmemory.symm.trans h) (by simp)
    | some held =>
      obtain ⟨dir, hdir, hload⟩ := hsound.held held hmemory
      refine settle_loaded (fun a t ha => ?_) (fun e t state he hstate => ?_) state
      · obtain ⟨e, hrun⟩ | ⟨retired, removed, t', hrun, hloaded⟩ := @retire_run server.disk dir held key_id hdir hload
        · exact absurd (hrun.symm.trans ha) (by simp)
        · obtain ⟨hresult, rfl⟩ := Prod.mk.inj (hrun.symm.trans ha)
          exact Except.ok.inj hresult ▸ hloaded
      · obtain ⟨e', hrun⟩ | ⟨retired, removed, t', hrun, hloaded⟩ := @retire_run server.disk dir held key_id hdir hload
        · obtain ⟨-, rfl⟩ := Prod.mk.inj (hrun.symm.trans he)
          exact Option.some.inj hstate ▸ ⟨dir, hdir, hload⟩
        · exact absurd (hrun.symm.trans he) (by simp)

theorem Sound.after (hsound : Sound server) (hcareful : Careful server event) : Sound (server.after event) := by
  refine ⟨fun dir hdir => ?_, after_held hsound hcareful⟩
  cases hbefore : server.disk.keys_dir with
  | none =>
    obtain hnone | ⟨new, -, dir', state, hdir', hload, -⟩ := after_first hsound hbefore hcareful
    · exact absurd (hnone.symm.trans hdir) (by simp)
    · obtain rfl := Option.some.inj (hdir.symm.trans hdir')
      exact ⟨state, hload⟩
  | some before =>
    obtain ⟨state, hload⟩ := hsound.loads before hbefore
    obtain ⟨dir', after, hdir', hafter, -⟩ := after_stillLoads hsound hbefore hload hcareful
    obtain rfl := Option.some.inj (hdir.symm.trans hdir')
    exact ⟨after, hafter⟩

theorem run_sound (hstart : Start start) (hrun : Run (fun server event => some (server.after event)) Careful start server) :
    Sound server := by
  refine hrun.invariant (sound_of_start hstart) fun before after event hsound hcareful hstep => ?_
  obtain rfl := Option.some.inj hstep
  exact hsound.after hcareful

private theorem member_of_loaded {disk : StateDir} {state : SignerState} (h : LoadedAs state disk) :
    ∃ secret, state.keys.lookup state.active_id = some secret := by
  obtain ⟨dir, -, hload⟩ := h
  exact active_entry_of_load_set hload

private theorem key_set_of_loads {disk : StateDir} {dir : KeysDir} {state : SignerState} (hdir : disk.keys_dir = some dir)
    (hload : load_set dir = .ok state) : disk.key_set = some state := by
  rw [StateDir.key_set, hdir, Option.bind_some, hload]
  rfl

/-- Whatever calls were made and wherever they were interrupted, the next
`load_or_create` finds the keys of before and the old or the new active one. -/
theorem keys_survive_crashes (hstart : Start start)
    (hrun : Run (fun server event => some (server.after event)) Careful start server) (hcareful : Careful server event)
    {next : NewKey} (hnext : Careful (server.after event) ⟨.load_or_create next, none⟩) :
    ∃ after, Recovers server event next after := by
  have hsound := run_sound hstart hrun
  cases hbefore : server.disk.keys_dir with
  | some dir =>
    obtain ⟨before, hload⟩ := hsound.loads dir hbefore
    have hset := key_set_of_loads hbefore hload
    obtain ⟨dir', after, hdir', hafter, hkept, hactive⟩ := after_stillLoads hsound hbefore hload hcareful
    obtain ⟨t, hloads, hloaded⟩ := @load_run _ next _ _ hdir' hafter
    refine ⟨after, by rw [hloads], member_of_loaded hloaded, fun state hstate => ?_, fun state hstate => ?_, fun hnone => ?_⟩
    · exact Option.some.inj (hset.symm.trans hstate) ▸ hkept
    · exact Option.some.inj (hset.symm.trans hstate) ▸ hactive
    · exact absurd (hset.symm.trans hnone) (by simp)
  | none =>
    have hset : server.disk.key_set = none := by
      rw [StateDir.key_set, hbefore]
      rfl
    have hno (state : SignerState) : server.disk.key_set ≠ some state := by
      rw [hset]
      exact (Option.some_ne_none state).symm
    obtain hnone | ⟨new, hcall, dir', after, hdir', hafter, hactive⟩ := after_first hsound hbefore hcareful
    · obtain ⟨after, t, hloads, hloaded, hactive⟩ := @load_first_run _ next hnone (hnext hnone).1
      exact ⟨after, by rw [hloads], member_of_loaded hloaded, fun state hstate => absurd hstate (hno state),
        fun state hstate => absurd hstate (hno state), fun _ => .inl hactive⟩
    · obtain ⟨t, hloads, hloaded⟩ := @load_run _ next _ _ hdir' hafter
      exact ⟨after, by rw [hloads], member_of_loaded hloaded, fun state hstate => absurd hstate (hno state),
        fun state hstate => absurd hstate (hno state), fun _ => .inr ⟨new, hcall, hactive⟩⟩

end Runs

section Samples

/-- A server on a new directory. -/
def new_server : Server := ⟨⟨"/var/lib/iac", true, none, none, none, false⟩, none⟩

def initial_key : NewKey where
  key_id := "01A"
  secret := List.replicate 32 1
  named := by decide
  plain := by decide
  length := rfl

def rotated_key : NewKey where
  key_id := "01B"
  secret := List.replicate 32 2
  named := by decide
  plain := by decide
  length := rfl

/-- A rotation that crashes once it has written the key file. -/
theorem interrupted_rotation_recovers :
    ∃ after, Recovers (new_server.after ⟨.load_or_create initial_key, none⟩) ⟨.rotate rotated_key, some 4⟩ initial_key after := by
  have hfirst : Careful new_server ⟨.load_or_create initial_key, none⟩ := fun _ =>
    ⟨fun _ _ hsecret => absurd hsecret (by simp [new_server]), fun _ hcrash => absurd hcrash (by simp)⟩
  refine keys_survive_crashes ⟨rfl, fun dir hdir => absurd hdir (by simp [new_server])⟩ (Run.start.step hfirst rfl) ?_ ?_
  · intro dir hdir
    obtain rfl := Option.some.inj hdir
    decide
  · intro hnone
    exact absurd hnone (by decide)

/-- A first start that crashes once the directory of keys is made leaves one that cannot be loaded. -/
theorem interrupted_first_start_is_not_loaded :
    ¬ ∃ after, Recovers new_server ⟨.load_or_create initial_key, some 1⟩ rotated_key after := by
  rintro ⟨after, hrecovers⟩
  have hfailed : ((load_or_create rotated_key).run (new_server.after ⟨.load_or_create initial_key, some 1⟩).disk).1 =
      .error "loading key set from /var/lib/iac/signing-keys" := by
    rfl
  exact absurd (hfailed.symm.trans hrecovers.loaded) (by simp)

end Samples

end iac_controlplane.signing
