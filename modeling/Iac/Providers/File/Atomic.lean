import Iac.Providers.File

open iac_core iac_core.executor posix posix.Kernel serde_json Script

namespace iac_providers.file

section Places

variable {p dir : Path} {ulid : Ulid}

/-- A path in normal form that is not the root. -/
structure Named (p : Path) : Prop where
  normal : path.normal p = p
  below_root : path.resolve p ≠ []

/-- Where the file stands before it has its name. -/
def tmp_path (p : Path) (ulid : Ulid) : Path :=
  path.join ((parent p).getD []) (tmp_name ((file_name p).getD []) ulid)

theorem Named.parent_eq (h : Named p) : parent p = some (path.render (path.resolve p).dropLast) := by
  rw [parent, if_neg h.below_root]

theorem Named.file_name_eq (h : Named p) : file_name p = some ((path.resolve p).getLast h.below_root) :=
  List.getLast?_eq_some_getLast h.below_root

theorem Named.resolve_parent (h : parent p = some dir) : path.resolve dir = (path.resolve p).dropLast := by
  rw [parent] at h
  split_ifs at h
  obtain rfl := Option.some.inj h
  exact path.resolve_render fun n hn => path.plain_of_mem_resolve p n (List.dropLast_subset _ hn)

theorem slash_not_mem_ulid_text (ulid : Ulid) : '/' ∉ (ulid_text ulid).toList := by
  have hcrockford : ∀ c ∈ crockford, c ≠ '/' := str.forall_mem_of_all (by decide)
  rw [ulid_text, String.toList_ofList]
  intro hmem
  obtain ⟨i, -, hi⟩ := List.mem_map.mp hmem
  have hget : crockford.getD (ulid.val / 32 ^ (25 - i) % 32) '0' ∈ crockford := by
    have hlt : ulid.val / 32 ^ (25 - i) % 32 < crockford.length := Nat.mod_lt _ (by decide)
    rw [List.getD_eq_getElem?_getD, List.getElem?_eq_getElem hlt]
    exact List.getElem_mem hlt
  exact hcrockford _ hget hi

theorem plain_tmp_name {basename : List Char} (h : path.Plain basename) : path.Plain (tmp_name basename ulid) := by
  have hlength : 2 < (tmp_name basename ulid).length := by
    simp [tmp_name]
    omega
  refine ⟨nofun, fun hdot => ?_, fun hdots => ?_, ?_⟩
  · simp [hdot] at hlength
  · simp [hdots] at hlength
  have hulid := slash_not_mem_ulid_text ulid
  have hbase := h.no_slash
  simp [tmp_name, hulid, hbase]

theorem Named.resolve_tmp (h : Named p) :
    path.resolve (tmp_path p ulid) =
      (path.resolve p).dropLast ++ [tmp_name ((path.resolve p).getLast h.below_root) ulid] := by
  have hplain := path.plain_of_mem_resolve p _ (List.getLast_mem h.below_root)
  have hdir : path.render (path.resolve p).dropLast ≠ [] := by
    rw [path.render]
    split_ifs with hnil
    · simp
    · obtain ⟨name, names, heq⟩ := List.exists_cons_of_ne_nil hnil
      simp [heq, path.slashed]
  rw [tmp_path, h.parent_eq, h.file_name_eq, Option.getD_some, Option.getD_some, path.resolve_join (plain_tmp_name hplain) hdir,
    Named.resolve_parent h.parent_eq]

/-- The new file has another name than the target. -/
theorem Named.tmp_ne (h : Named p) : tmp_path p ulid ≠ p := by
  intro heq
  have hresolve : path.resolve (tmp_path p ulid) = _ := h.resolve_tmp
  rw [heq] at hresolve
  have hsame := (List.dropLast_append_getLast h.below_root).trans hresolve
  have hname := congrArg List.length (List.singleton_inj.mp (List.append_cancel_left hsame))
  simp [tmp_name] at hname
  omega

/-- The directories above a file are not the file. -/
theorem Named.not_mem_ancestors (h : Named p) (hdir : parent p = some dir) : p ∉ ancestors dir := by
  intro hmem
  obtain ⟨names, hnames, heq⟩ := List.mem_map.mp hmem
  have hinits := (List.mem_inits _ _).mp (List.mem_of_mem_tail hnames)
  have hresolve : path.resolve p = names := by
    rw [← heq]
    refine path.resolve_render fun n hn => path.plain_of_mem_resolve dir n (hinits.subset hn)
  have hlength := hinits.length_le
  have hpos := List.length_pos_iff.mpr h.below_root
  rw [Named.resolve_parent hdir, List.length_dropLast, hresolve] at hlength
  rw [hresolve] at hpos
  omega

end Places

section Writing

variable {k : Kernel} {p dir : Path} {ulid : Ulid} {base tree : Tree} {content : List UInt8} {mode : Option Nat}
  {uid gid : Option UInt32} {α : Type} {I : Tree → Prop} {Q : Except Error α → Tree → Prop}

/-- The file after `chown`, which is called only for an owner or a group. -/
def chowned (k : Kernel) (uid gid : Option UInt32) (file : Regular) : Regular :=
  if uid.isSome || gid.isSome then k.owned uid gid file else file

/-- The file that a write leaves: the attributes that the spec does not have, and owners
that `chown` leaves as they are, are those of a new file. -/
def written (k : Kernel) (content : List UInt8) (mode : Option Nat) (uid gid : Option UInt32) : Regular :=
  chowned k uid gid ⟨content, (mode.map mode_of).getD (mode_of 0o600), k.uid, k.gid⟩

/-- A write does not replace a symbolic link or a directory. -/
def replaceable (entry : Option Entry) : Prop := entry ≠ some .symlink ∧ entry ≠ some .directory

theorem ensures_check_target {next : Unit → Script Tree Error α} (hI : I tree) (herror : ∀ e, Q (.error e) tree)
    (hok : replaceable (tree p) → (next ()).Ensures I Q tree) : (check_target k p >>= next).Ensures I Q tree := by
  rw [check_target, lstat, bind_assoc]
  refine ensures_look_bind (fun e he => ?_) fun entry hentry => ?_
  · cases e with
    | Other text => exact ⟨hI, herror _⟩
    | NotFound => exact hok (by simp [replaceable, lstat_not_found he])
  · have hp := lstat_found hentry
    cases entry with
    | symlink => exact ⟨hI, herror _⟩
    | directory => exact ⟨hI, herror _⟩
    | regular file => exact hok (by simp [replaceable, hp])
    | other => exact hok (by simp [replaceable, hp])

/-- A tree with the file at the path. -/
def with_file (tree : Tree) (p : Path) (file : Regular) : Tree := Function.update tree p (some (.regular file))

theorem with_content_with_file {file : Regular} {bytes : List UInt8} :
    with_content (with_file base p file) p file bytes = with_file base p { file with content := bytes } := by
  rw [with_content, with_file, Function.update_idem, with_file]

theorem on_with_file (f : Regular → Regular) (file : Regular) :
    on_file p f (with_file base p file) = .ok (with_file base p (f file)) := by
  have hthere : with_file base p file p = some (.regular file) := Function.update_self ..
  rw [on_file_eq hthere, with_file, Function.update_idem, with_file]

theorem ensures_on_file {tmp : Path} {call : Call} {f : Regular → Regular} {file : Regular} {wrap : Errno → Error}
    {next : Unit → Script Tree Error α}
    (hkeep : ∀ file, I (with_file base tmp file) ∧ ∀ e, Q (.error e) (with_file base tmp file))
    (hok : (next ()).Ensures I Q (with_file base tmp (f file))) :
    (checked wrap (k.change call tmp (on_file tmp f)) >>= next).Ensures I Q (with_file base tmp file) := by
  obtain ⟨hI, herror⟩ := hkeep file
  refine ensures_checked_change hI herror fun tree' htree' => ?_
  obtain rfl := Except.ok.inj ((on_with_file f file).symm.trans htree')
  exact hok

theorem ensures_chown {tmp : Path} {file : Regular} {next : Unit → Script Tree Error α}
    (hkeep : ∀ file, I (with_file base tmp file) ∧ ∀ e, Q (.error e) (with_file base tmp file))
    (hok : (next ()).Ensures I Q (with_file base tmp (chowned k uid gid file))) :
    ((if uid.isSome || gid.isSome then checked (io_error tmp) (k.chown tmp uid gid) else pure ()) >>= next).Ensures I Q
      (with_file base tmp file) := by
  unfold chowned at hok
  split_ifs at hok ⊢ with hgiven
  · exact ensures_on_file hkeep hok
  · exact hok

/-- Setting the attributes of the new file changes nothing else. -/
theorem ensures_set_attributes {tmp : Path} {next : Unit → Script Tree Error α}
    (hkeep : ∀ file, I (with_file base tmp file) ∧ ∀ e, Q (.error e) (with_file base tmp file))
    (hok : (next ()).Ensures I Q (with_file base tmp (written k content mode uid gid))) :
    (set_attributes k tmp mode uid gid >>= next).Ensures I Q (with_file base tmp ⟨content, mode_of 0o600, k.uid, k.gid⟩) := by
  unfold set_attributes
  cases mode with
  | none => exact ensures_chown hkeep hok
  | some mode =>
    simp only [bind_assoc]
    exact ensures_on_file hkeep (ensures_chown hkeep hok)

/-- What a write makes of the tree when it gets as far as the rename. -/
def Renamed (base : Tree) (p : Path) (file : Regular) (tree : Tree) : Prop :=
  tree p = some (.regular file) ∧ replaceable (base p) ∧ ∀ q, q ≠ p → tree q = base q

/-- Wherever a write is interrupted, the target is as it was or complete, and
nothing else is touched but the new file. -/
def Halfway (base : Tree) (p tmp : Path) (file : Regular) (tree : Tree) : Prop :=
  (∀ q, q ≠ tmp → tree q = base q) ∨ Renamed base p file tree

theorem ensures_write_atomic (hp : Named p) (hdir : parent p = some dir) :
    (write_atomic_unix k ulid p dir content mode uid gid).Ensures
      (Halfway base p (tmp_path p ulid) (written k content mode uid gid))
      (fun result tree => match result with
        | .ok () => Renamed base p (written k content mode uid gid) tree
        | .error _ => ∀ q, q ≠ tmp_path p ulid → tree q = base q) base := by
  have hne : tmp_path p ulid ≠ p := hp.tmp_ne
  have hkeep (file : Regular) :
      Halfway base p (tmp_path p ulid) (written k content mode uid gid) (with_file base (tmp_path p ulid) file) ∧
        ∀ _ : Error, ∀ q, q ≠ tmp_path p ulid → with_file base (tmp_path p ulid) file q = base q :=
    ⟨.inl fun q hq => Function.update_of_ne hq _ _, fun _ q hq => Function.update_of_ne hq _ _⟩
  have hbase : Halfway base p (tmp_path p ulid) (written k content mode uid gid) base := .inl fun _ _ => rfl
  have htmp : path.join dir (tmp_name ((path.resolve p).getLast hp.below_root) ulid) = tmp_path p ulid := by
    rw [tmp_path, hdir, hp.file_name_eq, Option.getD_some, Option.getD_some]
  rw [write_atomic_unix, hp.file_name_eq]
  simp only [htmp]
  refine ensures_checked_look hbase (fun _ _ _ => rfl) fun _ _ => ?_
  refine ensures_check_target hbase (fun _ _ _ => rfl) fun hreplaceable => ?_
  refine ensures_checked_change hbase (fun _ _ _ => rfl) fun tree' hcreated => ?_
  have hnone : base (tmp_path p ulid) = none := by
    cases hthere : base (tmp_path p ulid) with
    | none => rfl
    | some entry => rw [hthere] at hcreated; cases hcreated
  rw [hnone] at hcreated
  obtain rfl : with_file base (tmp_path p ulid) ⟨[], mode_of 0o600, k.uid, k.gid⟩ = tree' := Except.ok.inj hcreated
  refine ensures_checked_write_all (Function.update_self ..) (hkeep _).1 (hkeep _).2 (fun part => ?_) ?_
  · rw [with_content_with_file]
    exact hkeep _
  rw [with_content_with_file]
  refine ensures_checked_look (hkeep _).1 (hkeep _).2 fun _ _ => ?_
  refine ensures_set_attributes hkeep ?_
  refine ensures_checked_change (hkeep _).1 (hkeep _).2 fun tree' hrenamed => ?_
  have hnew : with_file base (tmp_path p ulid) (written k content mode uid gid) (tmp_path p ulid) =
      some (.regular (written k content mode uid gid)) := Function.update_self ..
  obtain rfl := moved_ok hnew hrenamed
  have hdone : Renamed base p (written k content mode uid gid) (Function.update (Function.update
      (with_file base (tmp_path p ulid) (written k content mode uid gid)) (tmp_path p ulid) none)
      p (some (.regular (written k content mode uid gid)))) := by
    refine ⟨Function.update_self .., hreplaceable, fun q hq => ?_⟩
    rw [Function.update_of_ne hq, with_file, Function.update_idem, ← hnone, Function.update_eq_self]
  exact ⟨.inr hdone, hdone⟩

theorem ensures_ensure_dir {next : Unit → Script Tree Error α}
    (hkeep : ∀ t, Grown (ancestors dir) tree t → I t ∧ ∀ e, Q (.error e) t)
    (hok : ∀ t, Grown (ancestors dir) tree t → (next ()).Ensures I Q t) : (ensure_dir k dir >>= next).Ensures I Q tree := by
  have hself := Grown.refl (ancestors dir) tree
  rw [ensure_dir, bind_assoc, ensures_get_bind]
  split_ifs with hnone
  · exact ensures_checked_make_dirs (List.Subset.refl _) hself hkeep hok
  · exact hok tree hself

/-- The name, if there is one, has the id. -/
def Resolved (resolve : String → Except String UInt32) (name : Option String) (id : Option UInt32) : Prop :=
  name.map resolve = id.map .ok

theorem ensures_resolve_name {field : String} {resolve : Tree → String → Except String UInt32} {name : Option String}
    {next : Option UInt32 → Script Tree Error α} (hI : I tree) (herror : ∀ e, Q (.error e) tree)
    (hok : ∀ id, Resolved (resolve tree) name id → (next id).Ensures I Q tree) :
    (resolve_name field resolve name >>= next).Ensures I Q tree := by
  rw [resolve_name, bind_assoc, ensures_get_bind]
  cases name with
  | none => exact hok none rfl
  | some name =>
    cases hresolve : resolve tree name with
    | error e =>
      simp only [hresolve, fail_bind, ensures_fail]
      exact ⟨hI, herror _⟩
    | ok id =>
      simp only [hresolve, pure_bind]
      exact hok (some id) (congrArg some hresolve)

end Writing

section Atomic

variable {k : Kernel} {spec : FileSpec} {before : Tree}

/-- Nothing has changed but the new file and the directories above it that were missing. -/
def Kept (p : Path) (ulid : Ulid) (before after : Tree) : Prop :=
  ∀ q, q ≠ tmp_path p ulid → after q = before q ∨
    q ∈ ancestors ((parent p).getD []) ∧ before q = none ∧ after q = some .directory

/-- The target is a regular file with the content and the attributes of the
spec; it was no symbolic link and no directory, and nothing else has changed but
the directories above it that were missing. -/
def Wrote (k : Kernel) (spec : FileSpec) (before after : Tree) : Prop :=
  replaceable (before spec.path.toList) ∧ ∃ middle uid gid,
    Grown (ancestors ((parent spec.path.toList).getD [])) before middle ∧ Resolved (resolve_uid k middle) spec.owner uid ∧
    Resolved (resolve_gid k middle) spec.group gid ∧
    Renamed middle spec.path.toList (written k (bytes_of spec.content) spec.parsed_mode uid gid) after

theorem ensures_write (sha256_hex : List UInt8 → String) (ulid : Ulid) (hpath : Named spec.path.toList) :
    (write k sha256_hex ulid spec).Ensures (fun after => Kept spec.path.toList ulid before after ∨ Wrote k spec before after)
      (all_or_nothing (Wrote k spec before) (Kept spec.path.toList ulid before)) before := by
  have hdir := hpath.parent_eq
  have hgetD : (parent spec.path.toList).getD [] = path.render (path.resolve spec.path.toList).dropLast := by
    rw [hdir, Option.getD_some]
  have hkept {middle after : Tree}
      (hgrown : Grown (ancestors (path.render (path.resolve spec.path.toList).dropLast)) before middle)
      (hsame : ∀ q, q ≠ tmp_path spec.path.toList ulid → after q = middle q) : Kept spec.path.toList ulid before after := by
    intro q hq
    rw [hsame q hq, hgetD]
    exact hgrown q
  have hgrown_kept {middle : Tree}
      (hgrown : Grown (ancestors (path.render (path.resolve spec.path.toList).dropLast)) before middle) :
      (Kept spec.path.toList ulid before middle ∨ Wrote k spec before middle) ∧
        ∀ _ : Error, Kept spec.path.toList ulid before middle :=
    ⟨.inl (hkept hgrown fun _ _ => rfl), fun _ => hkept hgrown fun _ _ => rfl⟩
  unfold write
  simp only [hdir]
  refine ensures_ensure_dir (fun middle hgrown => hgrown_kept hgrown) fun middle hgrown => ?_
  obtain ⟨hI, herror⟩ := hgrown_kept hgrown
  refine ensures_resolve_name hI herror fun uid huid => ensures_resolve_name hI herror fun gid hgid => ?_
  have hwrote {after : Tree} (hrenamed : Renamed middle spec.path.toList
      (written k (bytes_of spec.content) spec.parsed_mode uid gid) after) : Wrote k spec before after := by
    have htarget : middle spec.path.toList = before spec.path.toList := by
      obtain hsame | ⟨hmem, -⟩ := hgrown spec.path.toList
      · exact hsame
      · exact absurd hmem (hpath.not_mem_ancestors hdir)
    exact ⟨htarget ▸ hrenamed.2.1, middle, uid, gid, hgetD ▸ hgrown, huid, hgid, hrenamed⟩
  refine ensures_bind ((ensures_write_atomic hpath hdir).imp ?_ ?_)
  · rintro after (hsame | hrenamed)
    · exact .inl (hkept hgrown hsame)
    · exact .inr (hwrote hrenamed)
  · rintro (e | ⟨⟩) after hresult
    · exact hkept hgrown hresult
    · exact ⟨.inr (hwrote hresult), hwrote hresult⟩

/-- Writing a file is atomic. A write that succeeds leaves the whole file under
its name, one that fails leaves everything but the new file as it was, and one
that is interrupted leaves one or the other. -/
theorem write_is_atomic (k : Kernel) (sha256_hex : List UInt8 → String) (ulid : Ulid) {spec : FileSpec}
    (hpath : Named spec.path.toList) (before : Tree) (crash : Option Nat) :
    Script.Atomic (Wrote k spec before) (Kept spec.path.toList ulid before)
      ((write k sha256_hex ulid spec).outcome crash before) :=
  (ensures_write sha256_hex ulid hpath).atomic crash

def greeting : FileSpec where
  path := "/etc/motd"
  content := some "hello"

/-- A kernel that refuses nothing. -/
def willing : Kernel where
  refuses _ _ _ := none
  written := 0
  uid := .root
  gid := .root
  after_chown mode := mode

def etc : Tree := fun p => if p = "/etc".toList then some .directory else none

theorem greeting_is_written : Script.Atomic (Wrote willing greeting etc) (Kept greeting.path.toList 0 etc)
    ((write willing (fun _ => "2cf24dba") 0 greeting).outcome (some 3) etc) := by
  have hnamed : Named greeting.path.toList := ⟨by decide, by decide⟩
  exact write_is_atomic willing _ 0 hnamed etc (some 3)

end Atomic

end iac_providers.file
