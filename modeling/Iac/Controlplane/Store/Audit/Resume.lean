import Iac.Controlplane.Identity
import Iac.Controlplane.Store.Audit.Evidence

open iac_controlplane.identity sql

namespace iac_controlplane.store

/-- The hashed rows up to an id, in the order of their ids. -/
def hashed_upto (last : Int) (table : List AuditEventRow) : List AuditEventRow :=
  (table.filter fun row => row.row_hash.isSome && decide ((row.id : Int) ≤ last)).insertionSort fun a b => a.id ≤ b.id

/-- The hash of the last hashed row up to an id, or nothing when there is none. -/
def nearest_hash (table : List AuditEventRow) (last : Int) : String := chain_end "" (hashed_upto last table)

/-- The row does not carry the hash of the nearest hashed row before it, or not its own. -/
def Broken (crates : Crates) (table : List AuditEventRow) (row : AuditEventRow) : Prop :=
  row.prev_hash.getD "" ≠ nearest_hash table (row.id - 1) ∨
    compute_audit_row_hash crates (row.prev_hash.getD "") 0 (row_to_audit_inputs row) ≠ row.row_hash.getD ""

instance (crates : Crates) (table : List AuditEventRow) (row : AuditEventRow) : Decidable (Broken crates table row) :=
  inferInstanceAs (Decidable (_ ∨ _))

/-- The first hashed row above an id that is broken. -/
def first_broken (crates : Crates) (table : List AuditEventRow) (from_id : Int) : Option Nat :=
  ((hashed_after from_id table).find? fun row => decide (Broken crates table row)).map AuditEventRow.id

/-- The verification from an id on finds the first broken row above it, the full one
that of the table, and it is the rest of a full one whose part up to there is clean. -/
structure Agrees (crates : Crates) (table : List AuditEventRow) (from_id : Int) : Prop where
  full : audit_verify_chain crates table = first_broken crates table 0
  resumed : audit_verify_chain_from crates table from_id = first_broken crates table from_id
  rest : audit_verify_chain crates table = none ↔
    (∀ row ∈ hashed_rows table, row.id ≤ from_id → ¬ Broken crates table row) ∧
      audit_verify_chain_from crates table from_id = none

/-- The row with this very id tells the hash of the nearest hashed row up to it, or the
first one above follows neither that hash nor the one that is told. -/
def Resumes (crates : Crates) (table : List AuditEventRow) (from_id : Int) : Prop :=
  seed_hash table from_id = nearest_hash table from_id ∨
    ∀ row ∈ (hashed_after from_id table).head?,
      ¬ Follows crates (seed_hash table from_id) row ∧ ¬ Follows crates (nearest_hash table from_id) row

section Walk

variable {crates : Crates} {table rows rest : List AuditEventRow} {row : AuditEventRow} {from_id : Int} {prev_hash : String}

theorem not_broken_iff : ¬ Broken crates table row ↔ Follows crates (nearest_hash table (row.id - 1)) row := by
  rw [Broken, not_or, not_not, not_not, Follows]
  exact and_congr_right fun hprev => by rw [hprev, eq_comm]

private theorem mem_hashed_upto {last : Int} : row ∈ hashed_upto last table ↔
    row ∈ table ∧ row.row_hash.isSome = true ∧ (row.id : Int) ≤ last := by
  simp [hashed_upto, List.mem_insertionSort]

/-- The rows up to the one before a row are those up to the start and those the walk has passed. -/
private theorem hashed_upto_of_split (hids : (table.map AuditEventRow.id).Nodup)
    (hsplit : hashed_after from_id table = rows ++ row :: rest) :
    hashed_upto (row.id - 1) table = hashed_upto from_id table ++ rows := by
  have hascends := hashed_after_ascends hids from_id
  rw [hsplit] at hascends
  obtain ⟨hrows, hlater, hbefore⟩ := List.pairwise_append.mp hascends
  have hmem (other : AuditEventRow) : other ∈ hashed_after from_id table ↔ other ∈ rows ∨ other = row ∨ other ∈ rest := by
    simp [hsplit]
  have hrow := mem_hashed_after.mp ((hmem row).mpr (.inr (.inl rfl)))
  refine eq_of_ascending (filtered_ascends hids _) ?_ fun other => ?_
  · refine List.pairwise_append.mpr ⟨filtered_ascends hids _, hrows, fun a ha b hb => ?_⟩
    have hle := (mem_hashed_upto.mp ha).2.2
    have hlt := (mem_hashed_after.mp ((hmem b).mpr (.inl hb))).2.2
    omega
  · rw [List.mem_append, mem_hashed_upto, mem_hashed_upto]
    constructor
    · rintro ⟨htable, hhash, hlt⟩
      by_cases hstart : (other.id : Int) ≤ from_id
      · exact .inl ⟨htable, hhash, hstart⟩
      · obtain hpassed | rfl | hlater' := (hmem other).mp (mem_hashed_after.mpr ⟨htable, hhash, by omega⟩)
        · exact .inr hpassed
        · omega
        · have hgt := (List.pairwise_cons.mp hlater).1 other hlater'
          omega
    · rintro (⟨htable, hhash, hle⟩ | hpassed)
      · exact ⟨htable, hhash, by omega⟩
      · obtain ⟨htable, hhash, -⟩ := mem_hashed_after.mp ((hmem other).mpr (.inl hpassed))
        have hlt := hbefore other hpassed row List.mem_cons_self
        exact ⟨htable, hhash, by omega⟩

private theorem chain_end_append : chain_end prev_hash (rows ++ rest) = chain_end (chain_end prev_hash rows) rest :=
  List.foldl_append

/-- One walk with the nearest hash at its start finds the first broken row. -/
theorem first_broken_eq (hids : (table.map AuditEventRow.id).Nodup) (from_id : Int) :
    first_broken crates table from_id =
      first_unchained crates (nearest_hash table from_id) (hashed_after from_id table) := by
  suffices hwalk : ∀ rest rows, hashed_after from_id table = rows ++ rest →
      (rest.find? fun row => decide (Broken crates table row)).map AuditEventRow.id =
        first_unchained crates (chain_end (nearest_hash table from_id) rows) rest from hwalk _ [] rfl
  intro rest
  induction rest with
  | nil => exact fun _ _ => rfl
  | cons row rest ih =>
    intro rows hsplit
    have hnearest : nearest_hash table (row.id - 1) = chain_end (nearest_hash table from_id) rows := by
      rw [nearest_hash, hashed_upto_of_split hids hsplit, chain_end_append, nearest_hash]
    rw [first_unchained, ← hnearest, List.find?_cons]
    by_cases hbroken : Broken crates table row
    · rw [if_neg fun hfollows => not_broken_iff.mpr hfollows hbroken, decide_eq_true hbroken]
      rfl
    · rw [if_pos (not_broken_iff.mp hbroken), decide_eq_false hbroken]
      have hrest := ih (rows ++ [row]) (by rw [hsplit, List.append_assoc, List.singleton_append])
      rw [chain_end_append] at hrest
      exact hrest

theorem first_broken_eq_none_iff : first_broken crates table from_id = none ↔
    ∀ row ∈ hashed_after from_id table, ¬ Broken crates table row := by
  simp [first_broken, List.find?_eq_none]

theorem mem_of_first_unchained {id : Nat} (h : first_unchained crates prev_hash rows = some id) :
    ∃ row ∈ rows, row.id = id := by
  induction rows generalizing prev_hash with
  | nil => cases h
  | cons row rows ih =>
    rw [first_unchained] at h
    split_ifs at h
    · obtain ⟨found, hmem, hid⟩ := ih h
      exact ⟨found, List.mem_cons_of_mem _ hmem, hid⟩
    · exact ⟨row, List.mem_cons_self, Option.some.inj h⟩

/-- Two walks over the same rows that start with different hashes find the same when the first row follows neither. -/
theorem first_unchained_congr_iff {first second : String} (hids : rows.Pairwise fun a b => a.id < b.id) :
    first_unchained crates first rows = first_unchained crates second rows ↔
      first = second ∨ ∀ row ∈ rows.head?, ¬ Follows crates first row ∧ ¬ Follows crates second row := by
  cases rows with
  | nil => simp [first_unchained]
  | cons row rows =>
    obtain ⟨hlater, -⟩ := List.pairwise_cons.mp hids
    have hne : first_unchained crates (row.row_hash.getD "") rows ≠ some row.id := by
      intro hfound
      obtain ⟨found, hmem, hid⟩ := mem_of_first_unchained hfound
      have hlt := hlater found hmem
      omega
    simp only [List.head?_cons, Option.mem_def, Option.some.injEq, forall_eq', first_unchained]
    by_cases hfirst : Follows crates first row <;> by_cases hsecond : Follows crates second row
    · exact iff_of_true (by rw [if_pos hfirst, if_pos hsecond]) (.inl (hfirst.1.symm.trans hsecond.1))
    · rw [if_pos hfirst, if_neg hsecond]
      refine iff_of_false hne ?_
      rintro (rfl | hneither)
      · exact hsecond hfirst
      · exact hneither.1 hfirst
    · rw [if_neg hfirst, if_pos hsecond]
      refine iff_of_false hne.symm ?_
      rintro (rfl | hneither)
      · exact hfirst hsecond
      · exact hneither.2 hsecond
    · exact iff_of_true (by rw [if_neg hfirst, if_neg hsecond]) (.inr ⟨hfirst, hsecond⟩)

/-- The verification from an id on finds the first broken row above it exactly when it resumes the chain there. -/
theorem resumed_eq_iff (hids : (table.map AuditEventRow.id).Nodup) :
    audit_verify_chain_from crates table from_id = first_broken crates table from_id ↔ Resumes crates table from_id := by
  rw [audit_verify_chain_from_eq crates hids, first_broken_eq hids]
  exact first_unchained_congr_iff (hashed_after_ascends hids from_id)

end Walk

structure VerifyResponse where
  ok : Bool
  broken_id : Option Nat
  verified_from_id : Int

def verify_chain (crates : Crates) (identity : Identity) (from_id : Option Int) (table : List AuditEventRow) :
    Except ApiError VerifyResponse := do
  let _ ← require_role identity .Approver
  let from_id := max (from_id.getD 0) 0
  let broken_id := audit_verify_chain_from crates table from_id
  return { ok := broken_id.isNone, broken_id, verified_from_id := from_id }

/-- The endpoint answers `ok` when no row above its cursor is broken, where the chain is resumed. -/
theorem verify_chain_ok_iff {crates : Crates} {identity : Identity} {from_id : Option Int} {table : List AuditEventRow}
    {response : VerifyResponse} (hids : (table.map AuditEventRow.id).Nodup)
    (hresponse : verify_chain crates identity from_id table = .ok response)
    (hresumes : Resumes crates table response.verified_from_id) :
    response.ok = true ↔ ∀ row ∈ hashed_after response.verified_from_id table, ¬ Broken crates table row := by
  rw [verify_chain] at hresponse
  cases hrole : require_role identity .Approver with
  | error e =>
    rw [hrole] at hresponse
    cases hresponse
  | ok caller =>
    rw [hrole] at hresponse
    obtain rfl := Except.ok.inj hresponse
    dsimp only at hresumes ⊢
    rw [(resumed_eq_iff hids).mpr hresumes, Option.isNone_iff_eq_none, first_broken_eq_none_iff]

/-- The verification agrees with the full one exactly when both resume the chain where they start. -/
theorem verification_agrees_iff (crates : Crates) {table : List AuditEventRow} (hids : (table.map AuditEventRow.id).Nodup)
    {from_id : Int} (hfrom : 0 ≤ from_id) :
    Agrees crates table from_id ↔ Resumes crates table 0 ∧ Resumes crates table from_id := by
  rw [← resumed_eq_iff hids, ← resumed_eq_iff hids]
  refine ⟨fun h => ⟨h.full, h.resumed⟩, fun ⟨hfull, hresumed⟩ => ⟨hfull, hresumed, ?_⟩⟩
  rw [audit_verify_chain, hfull, hresumed, first_broken_eq_none_iff, first_broken_eq_none_iff]
  constructor
  · refine fun hall => ⟨fun row hrow _ => hall row hrow, fun row hrow => hall row ?_⟩
    obtain ⟨htable, hhash, hlt⟩ := mem_hashed_after.mp hrow
    exact mem_hashed_after.mpr ⟨htable, hhash, by omega⟩
  · rintro ⟨hupto, hafter⟩ row hrow
    by_cases hle : (row.id : Int) ≤ from_id
    · exact hupto row hrow hle
    · obtain ⟨htable, hhash, -⟩ := mem_hashed_after.mp hrow
      exact hafter row (mem_hashed_after.mpr ⟨htable, hhash, by omega⟩)

/-- A chain that is resumed at one of its hashed rows. -/
theorem resumed_at_row_agrees : Agrees digest_crates [submitted 1, approved 3] 1 := by
  refine (verification_agrees_iff digest_crates (by decide) (by decide)).mpr ⟨.inl rfl, .inl ?_⟩
  rfl

/-- A transaction that was rolled back has taken the id 2. From there on, the next
row of an unbroken chain is reported. -/
theorem burnt_id_is_reported :
    ¬ ∀ (crates : Crates) (table : List AuditEventRow) (from_id : Int), (table.map AuditEventRow.id).Nodup → 0 ≤ from_id →
      Agrees crates table from_id := by
  intro hall
  have hagrees := hall digest_crates [submitted 1, approved 3] 2 (by decide) (by decide)
  have hnearest : nearest_hash [submitted 1, approved 3] 2 = (submitted 1).row_hash.getD "" := rfl
  have hfollows : Follows digest_crates ((submitted 1).row_hash.getD "") (approved 3) := by
    simp [Follows, approved, audit_row, row_to_audit_inputs]
  obtain hseed | hneither := (resumed_eq_iff (by decide)).mp hagrees.resumed
  · obtain ⟨hlength, -⟩ : HexDigest ((submitted 1).row_hash.getD "") := hex_digest_is_digest _
    rw [← hnearest, ← hseed] at hlength
    cases hlength
  · exact (hneither (approved 3) rfl).2 (hnearest ▸ hfollows)

end iac_controlplane.store
