import Iac.Controlplane.Retention
import Iac.Controlplane.Store.Dispatch
import Iac.Controlplane.Store.PrepareRollback
import Iac.Controlplane.Store.Run
import Iac.Controlplane.Store.Users
import Iac.Core.Timestamp.Order

open iac_controlplane.retention sql

namespace iac_controlplane.store

/-- What is decided by the texts of the instants is what the instants say: their
order, a lease taken at `t` whose cutoff is `u`, a session that expires at `u` and
is read or swept at `t`, an operation of `t` before a rollback of one of `u` and
which of the two is the later one, and a row of `t` at the retention cutoff `u`. -/
structure FollowsInstants (t u : jiff.Timestamp) : Prop where
  order : t.to_string < u.to_string ↔ t.nanos < u.nanos
  lease : ∀ a : AssignmentRow, a.status = .fetched → a.fetched_at = some t.to_string →
    (claimable u.to_string a = true ↔ t.nanos < u.nanos)
  token : ∀ row : UserTokenRow, row.expires_at = u.to_string →
    (presents row.token_hash t.to_string row = true ↔ t.nanos < u.nanos)
  prune : ∀ (db : Db UserTable.Row) (row : UserTokenRow), row ∈ db.rows .user_tokens → row.expires_at = u.to_string →
    (row ∈ ((prune_expired_tokens t).run db).2.rows .user_tokens ↔ t.nanos < u.nanos)
  rollback : ∀ (rows : Rows Row) (op o : OperationRow) (ds : DesiredStateRow),
    (rows .operations).find? (fun row => row.id == op.id) = some op → o.created_at = t.to_string →
    op.created_at = u.to_string → ds.operation_id ≠ op.id → applied o.status = true →
    (precedes rows op.id ds.resource_id ds o = true ↔ t.nanos < u.nanos)
  later : ∀ id id' : Nat, toLex (t.to_string, id) ≤ toLex (u.to_string, id') ↔ toLex (t.nanos, id) ≤ toLex (u.nanos, id')
  retention : ∀ (table : Table) (column : Row table → String) (now later : jiff.Timestamp) (days : Nat) (db : Store)
    (row : Row table), row ∈ db.rows table → column row = t.to_string → cutoff_string now later days = u.to_string →
    (row ∈ ((delete_older_than table column now later days).run db).2.rows table ↔ ¬ t.nanos < u.nanos)

section Decisions

variable {t u : jiff.Timestamp}

private theorem text_eq_iff : t.to_string = u.to_string ↔ t.nanos = u.nanos := by
  constructor
  · intro h
    rw [jiff.to_string_injective h]
  · obtain ⟨nanos, hrange⟩ := t
    obtain ⟨nanos', hrange'⟩ := u
    rintro rfl
    rfl

private theorem prune_keeps_iff {db : Db UserTable.Row} {row : UserTokenRow} (hrow : row ∈ db.rows .user_tokens) :
    row ∈ ((prune_expired_tokens t).run db).2.rows .user_tokens ↔ t.to_string < row.expires_at := by
  rw [prune_expired_tokens, run_bind_ok (run_delete_where _ _ _)]
  simp [List.mem_filter, hrow]

private theorem retention_keeps_iff {table : Table} {column : Row table → String} {now later : jiff.Timestamp} {days : Nat}
    {db : Store} {row : Row table} (hrow : row ∈ db.rows table) :
    row ∈ ((delete_older_than table column now later days).run db).2.rows table ↔
      ¬ column row < cutoff_string now later days := by
  rw [delete_older_than, run_bind_ok (run_delete_where _ _ _)]
  simp [List.mem_filter, hrow]

/-- The comparisons of the database decide as the instants do exactly when
neither text is the other one cut short. -/
theorem decisions_follow_instants_iff (hera : 0 ≤ t.nanos ∨ 0 ≤ u.nanos) :
    FollowsInstants t u ↔ ¬ jiff.Truncates t u ∧ ¬ jiff.Truncates u t := by
  rw [← jiff.text_order_iff hera]
  refine ⟨fun h => h.order, fun horder => ⟨horder, ?_, ?_, ?_, ?_, ?_, ?_⟩⟩
  · intro a hstatus hfetched
    rw [← horder]
    simp [claimable, hstatus, hfetched]
  · intro row hexpires
    simp [presents, hexpires, horder]
  · intro db row hrow hexpires
    rw [prune_keeps_iff hrow, hexpires, horder]
  · intro rows op o ds hop hcreated hcreated' hother happlied
    rw [← horder]
    simp [precedes, hop, hcreated, hcreated', hother, happlied]
  · intro id id'
    rw [Prod.Lex.toLex_le_toLex, Prod.Lex.toLex_le_toLex]
    simp only [horder, text_eq_iff]
  · intro table column now later days db row hrow hcolumn hcutoff
    rw [retention_keeps_iff hrow, hcolumn, hcutoff, horder]

end Decisions

section Samples

theorem tenths_in_range (tenths : Fin 100) : jiff.min_nanos ≤ midnight.nanos + tenths * 100000000 ∧
    midnight.nanos + tenths * 100000000 ≤ jiff.max_nanos := by
  have hlt := tenths.isLt
  simp only [midnight, jiff.min_nanos, jiff.max_nanos]
  omega

/-- Midnight and so many tenths of a second. -/
def tenths_later (tenths : Fin 100) : jiff.Timestamp where
  nanos := midnight.nanos + tenths * 100000000
  in_range := tenths_in_range tenths

theorem tenths_follow_instants : FollowsInstants (tenths_later 1) (tenths_later 2) :=
  (decisions_follow_instants_iff (by decide)).mpr (by decide)

/-- Midnight is written without a fraction, and its text comes after those of the second that it starts. -/
theorem midnight_is_not_first :
    ¬ ∀ t u : jiff.Timestamp, 0 ≤ t.nanos → 0 ≤ u.nanos → (t.to_string < u.to_string ↔ t.nanos < u.nanos) := by
  intro hall
  have horder := hall (tenths_later 0) (tenths_later 5) (by decide) (by decide)
  have htext : (tenths_later 5).to_string < (tenths_later 0).to_string := by
    set_option maxRecDepth 2000 in decide
  exact lt_asymm htext (horder.mpr (by decide))

end Samples

end iac_controlplane.store
