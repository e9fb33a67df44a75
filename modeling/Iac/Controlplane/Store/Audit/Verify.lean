import Iac.Controlplane.Store.Audit
import Mathlib.Data.List.Sort

open sql

namespace iac_controlplane.store

def row_to_audit_inputs (row : AuditEventRow) : AuditRowInputs :=
  { timestamp := row.timestamp, actor := row.actor, kind := row.kind, severity := row.severity,
    operation_id := row.operation_id, agent_id := row.agent_id, resource_id := row.resource_id,
    drift_id := row.drift_id, payload_json := row.payload_json }

/-- `WHERE row_hash IS NOT NULL AND id > ? ORDER BY id ASC`. -/
def hashed_after (last_seen : Int) (rows : List AuditEventRow) : List AuditEventRow :=
  (rows.filter fun row => row.row_hash.isSome && decide (last_seen < row.id)).insertionSort fun a b => a.id ≤ b.id

/-- The loop over the rows of a chunk, answering with the first broken id or
with the hash and the id it ends with. -/
def verify_rows (crates : Crates) : List AuditEventRow → String → Int → Except Nat (String × Int)
  | [], prev_hash, last_seen => .ok (prev_hash, last_seen)
  | row :: rows, prev_hash, _ =>
    let stored_row_hash := row.row_hash.getD ""
    if row.prev_hash.getD "" ≠ prev_hash then .error row.id
    else if compute_audit_row_hash crates prev_hash 0 (row_to_audit_inputs row) ≠ stored_row_hash then .error row.id
    else verify_rows crates rows stored_row_hash row.id

/-- `const CHUNK`. -/
def verify_chunk : Nat := 10000

/-- The loop over the chunks of the table, for so many chunks at most. -/
def verify_chunks (crates : Crates) (table : List AuditEventRow) : Nat → String → Int → Option Nat
  | 0, _, _ => none
  | fuel + 1, prev_hash, last_seen =>
    let rows := (hashed_after last_seen table).take verify_chunk
    if rows.isEmpty then none
    else match verify_rows crates rows prev_hash last_seen with
      | .error id => some id
      | .ok (prev_hash, last_seen) =>
        if rows.length < verify_chunk then none else verify_chunks crates table fuel prev_hash last_seen

/-- The hash that the verification from an id on takes as that of the row before. -/
def seed_hash (table : List AuditEventRow) (from_id : Int) : String :=
  if from_id ≤ 0 then ""
  else ((table.find? fun row => row.id = from_id && row.row_hash.isSome).bind AuditEventRow.row_hash).getD ""

/-- The first row after `from_id` that does not follow the one before it. Every
chunk but the last one is full, so there are fewer of them than rows. -/
def audit_verify_chain_from (crates : Crates) (table : List AuditEventRow) (from_id : Int) : Option Nat :=
  verify_chunks crates table (table.length + 1) (seed_hash table from_id) from_id

def audit_verify_chain (crates : Crates) (table : List AuditEventRow) : Option Nat :=
  audit_verify_chain_from crates table 0

/-- Every row carries the hash of the row before it, the first one `prev_hash`, and its own. -/
def Chained (crates : Crates) : String → List AuditEventRow → Prop
  | _, [] => True
  | prev_hash, row :: rows => row.prev_hash.getD "" = prev_hash ∧
    row.row_hash.getD "" = compute_audit_row_hash crates prev_hash 0 (row_to_audit_inputs row) ∧
    Chained crates (row.row_hash.getD "") rows

/-- The hash that the next row of the chain has to carry. -/
def chain_end (prev_hash : String) (rows : List AuditEventRow) : String :=
  rows.foldl (fun _ row => row.row_hash.getD "") prev_hash

theorem chained_append {crates : Crates} {prev_hash : String} {rows rest : List AuditEventRow} :
    Chained crates prev_hash (rows ++ rest) ↔ Chained crates prev_hash rows ∧
      Chained crates (chain_end prev_hash rows) rest := by
  induction rows generalizing prev_hash with
  | nil => simp [Chained, chain_end]
  | cons row rows ih => simp [Chained, chain_end, ih, and_assoc]

/-- The row carries this hash of the row before it, and its own. -/
def Follows (crates : Crates) (prev_hash : String) (row : AuditEventRow) : Prop :=
  row.prev_hash.getD "" = prev_hash ∧
    row.row_hash.getD "" = compute_audit_row_hash crates prev_hash 0 (row_to_audit_inputs row)

instance (crates : Crates) (prev_hash : String) (row : AuditEventRow) : Decidable (Follows crates prev_hash row) :=
  inferInstanceAs (Decidable (_ ∧ _))

/-- The first row that does not follow the one before it, of which the first one has to follow `prev_hash`. -/
def first_unchained (crates : Crates) : String → List AuditEventRow → Option Nat
  | _, [] => none
  | prev_hash, row :: rows =>
    if Follows crates prev_hash row then first_unchained crates (row.row_hash.getD "") rows else some row.id

theorem first_unchained_eq_none_iff {crates : Crates} {prev_hash : String} {rows : List AuditEventRow} :
    first_unchained crates prev_hash rows = none ↔ Chained crates prev_hash rows := by
  induction rows generalizing prev_hash with
  | nil => simp [first_unchained, Chained]
  | cons row rows ih =>
    rw [first_unchained, Chained, ← and_assoc, ← ih, ← Follows]
    split_ifs with hfollows <;> simp [hfollows]

theorem first_unchained_append {crates : Crates} {prev_hash : String} {rows rest : List AuditEventRow} :
    first_unchained crates prev_hash (rows ++ rest) =
      (first_unchained crates prev_hash rows).or (first_unchained crates (chain_end prev_hash rows) rest) := by
  induction rows generalizing prev_hash with
  | nil => simp [first_unchained, chain_end]
  | cons row rows ih =>
    rw [List.cons_append, first_unchained, first_unchained, ih]
    split_ifs <;> simp [chain_end]

/-- A recorded row follows the hash it was recorded with. -/
theorem chained_audit_row (crates : Crates) (now prev_hash : String) (rec : AuditRecord) (id : Nat)
    (rows : List AuditEventRow) :
    Chained crates prev_hash (audit_row crates now prev_hash rec id :: rows) ↔
      Chained crates ((audit_row crates now prev_hash rec id).row_hash.getD "") rows := by
  simp [Chained, audit_row, row_to_audit_inputs]

/-- The rows of the table that the verification walks over. -/
def hashed_rows (table : List AuditEventRow) : List AuditEventRow := hashed_after 0 table

def last_id (last_seen : Int) (rows : List AuditEventRow) : Int :=
  rows.foldl (fun _ row => row.id) last_seen

private theorem verify_rows_eq (crates : Crates) (rows : List AuditEventRow) (prev_hash : String) (last_seen : Int) :
    verify_rows crates rows prev_hash last_seen =
      match first_unchained crates prev_hash rows with
      | some id => .error id
      | none => .ok (chain_end prev_hash rows, last_id last_seen rows) := by
  induction rows generalizing prev_hash last_seen with
  | nil => rfl
  | cons row rows ih =>
    simp only [verify_rows, first_unchained, Follows]
    by_cases hprev : row.prev_hash.getD "" = prev_hash
    · by_cases hhash : compute_audit_row_hash crates prev_hash 0 (row_to_audit_inputs row) = row.row_hash.getD ""
      · simpa [hprev, hhash, chain_end, last_id] using ih (row.row_hash.getD "") row.id
      · simp [hprev, hhash, Ne.symm hhash]
    · simp [hprev]

/-- Rows with ids of their own ascend when they are sorted. -/
theorem filtered_ascends {table : List AuditEventRow} (hids : (table.map AuditEventRow.id).Nodup) (p : AuditEventRow → Bool) :
    ((table.filter p).insertionSort fun a b => a.id ≤ b.id).Pairwise fun a b => a.id < b.id := by
  have hsorted := List.pairwise_insertionSort (fun a b : AuditEventRow => a.id ≤ b.id) (table.filter p)
  have hdistinct : (((table.filter p).insertionSort fun a b => a.id ≤ b.id).map AuditEventRow.id).Nodup :=
    ((List.perm_insertionSort _ _).map _).nodup_iff.mpr (hids.sublist (List.filter_sublist.map _))
  rw [List.Nodup, List.pairwise_map] at hdistinct
  exact hsorted.imp₂ (fun a b hle hne => Nat.lt_of_le_of_ne hle hne) hdistinct

theorem hashed_after_ascends {table : List AuditEventRow} (hids : (table.map AuditEventRow.id).Nodup)
    (last_seen : Int) : (hashed_after last_seen table).Pairwise fun a b => a.id < b.id :=
  filtered_ascends hids _

theorem mem_hashed_after {last_seen : Int} {table : List AuditEventRow} {row : AuditEventRow} :
    row ∈ hashed_after last_seen table ↔ row ∈ table ∧ row.row_hash.isSome = true ∧ last_seen < row.id := by
  simp [hashed_after, List.mem_insertionSort]

theorem eq_of_ascending {rows rows' : List AuditEventRow} (h : rows.Pairwise fun a b => a.id < b.id)
    (h' : rows'.Pairwise fun a b => a.id < b.id) (hmem : ∀ row, row ∈ rows ↔ row ∈ rows') : rows = rows' := by
  have nodup {l : List AuditEventRow} (hl : l.Pairwise fun a b => a.id < b.id) : l.Nodup :=
    hl.imp fun hlt heq => absurd (congrArg AuditEventRow.id heq) (Nat.ne_of_lt hlt)
  refine List.Perm.eq_of_pairwise (fun a b _ _ hab hba => ?_) h h' ((List.perm_ext_iff_of_nodup (nodup h) (nodup h')).mpr hmem)
  omega

/-- Another chunk goes on where the one before it stopped. -/
private theorem hashed_after_last {table rows rest : List AuditEventRow} {last_seen : Int}
    (hids : (table.map AuditEventRow.id).Nodup) (hrows : rows ≠ []) (hsplit : hashed_after last_seen table = rows ++ rest) :
    hashed_after (last_id last_seen rows) table = rest := by
  obtain ⟨init, row, rfl⟩ := (List.eq_nil_or_concat' rows).resolve_left hrows
  have hlast : last_id last_seen (init ++ [row]) = row.id := by simp [last_id]
  have hascends := hashed_after_ascends hids last_seen
  rw [hsplit, List.append_assoc, List.singleton_append] at hascends
  obtain ⟨-, hrest, hinit⟩ := List.pairwise_append.mp hascends
  obtain ⟨hrow, hrest⟩ := List.pairwise_cons.mp hrest
  have hmem (other : AuditEventRow) : other ∈ hashed_after last_seen table ↔ other ∈ init ∨ other = row ∨ other ∈ rest := by
    simp [hsplit]
  have hrow_mem := mem_hashed_after.mp ((hmem row).mpr (.inr (.inl rfl)))
  rw [hlast]
  refine eq_of_ascending (hashed_after_ascends hids _) hrest fun other => ?_
  constructor
  · intro hother
    obtain ⟨htable, hhash, hlater⟩ := mem_hashed_after.mp hother
    obtain hbefore | rfl | hafter := (hmem other).mp (mem_hashed_after.mpr ⟨htable, hhash, by omega⟩)
    · have hlt := hinit other hbefore row List.mem_cons_self
      omega
    · omega
    · exact hafter
  · intro hother
    have hlt := hrow other hother
    obtain ⟨htable, hhash, -⟩ := mem_hashed_after.mp ((hmem other).mpr (.inr (.inr hother)))
    exact mem_hashed_after.mpr ⟨htable, hhash, by omega⟩

/-- The chunks find what one walk over all their rows does. -/
theorem verify_chunks_eq (crates : Crates) {table : List AuditEventRow} (hids : (table.map AuditEventRow.id).Nodup)
    (fuel : Nat) (prev_hash : String) (last_seen : Int) (hfuel : (hashed_after last_seen table).length < fuel) :
    verify_chunks crates table fuel prev_hash last_seen = first_unchained crates prev_hash (hashed_after last_seen table) := by
  induction fuel generalizing prev_hash last_seen with
  | zero => omega
  | succ fuel ih =>
    obtain ⟨rows, hrows⟩ : ∃ rows, rows = (hashed_after last_seen table).take verify_chunk := ⟨_, rfl⟩
    obtain ⟨rest, hrest⟩ : ∃ rest, rest = (hashed_after last_seen table).drop verify_chunk := ⟨_, rfl⟩
    have hsplit : hashed_after last_seen table = rows ++ rest := by
      rw [hrows, hrest, List.take_append_drop]
    simp only [verify_chunks, ← hrows]
    rw [hsplit, first_unchained_append, verify_rows_eq]
    by_cases hempty : rows = []
    · have hnil : hashed_after last_seen table = [] :=
        (List.take_eq_nil_iff.mp (hrows ▸ hempty)).resolve_left (by simp [verify_chunk])
      simp [hempty, hrest, hnil, first_unchained]
    · rw [if_neg (by simpa using hempty)]
      have hlength : (hashed_after last_seen table).length = rows.length + rest.length := by
        rw [hsplit, List.length_append]
      have hpos := List.length_pos_of_ne_nil hempty
      cases first_unchained crates prev_hash rows with
      | some id => rfl
      | none =>
        rw [Option.none_or]
        dsimp only
        split_ifs with hlast
        · have hnil : rest = [] := by
            rw [hrest, List.drop_eq_nil_iff]
            rw [hrows, List.length_take] at hlast
            omega
          rw [hnil, first_unchained]
        · have hafter := hashed_after_last hids hempty hsplit
          rw [ih _ _ (by rw [hafter]; omega), hafter]

theorem length_hashed_after_le (table : List AuditEventRow) (last_seen : Int) :
    (hashed_after last_seen table).length ≤ table.length := by
  rw [hashed_after, List.length_insertionSort]
  exact List.length_filter_le _ _

theorem audit_verify_chain_from_eq (crates : Crates) {table : List AuditEventRow} (hids : (table.map AuditEventRow.id).Nodup)
    (from_id : Int) : audit_verify_chain_from crates table from_id =
      first_unchained crates (seed_hash table from_id) (hashed_after from_id table) :=
  verify_chunks_eq crates hids _ _ _ (Nat.lt_succ_of_le (length_hashed_after_le table from_id))

/-- The verification reports nothing when the whole table is chained. -/
theorem audit_verify_chain_eq_none_iff (crates : Crates) {table : List AuditEventRow}
    (hids : (table.map AuditEventRow.id).Nodup) :
    audit_verify_chain crates table = none ↔ Chained crates "" (hashed_rows table) := by
  rw [audit_verify_chain, audit_verify_chain_from_eq crates hids, first_unchained_eq_none_iff]
  rfl

end iac_controlplane.store
