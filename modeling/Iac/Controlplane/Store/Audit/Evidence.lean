import Iac.Collections.SelfDelimiting
import Iac.Controlplane.Store.Audit.Verify
import Iac.Core.Sha256
import Mathlib.Data.List.Induction

open self_delimiting sql

namespace iac_controlplane.store

/-- The bytes whose digest is the hash of a row. -/
def AuditEventRow.preimage (row : AuditEventRow) : List UInt8 :=
  let r := row_to_audit_inputs row
  (row.prev_hash.getD "").toUTF8.data.toList ++ be_bytes 0 ++ write_field r.timestamp ++
    write_field r.actor ++ write_field r.kind ++ write_field r.severity ++
    write_optional_str r.operation_id ++ write_optional_str r.agent_id ++
    write_optional_str r.resource_id ++ write_optional_int r.drift_id ++ write_field r.payload_json

/-- A text that fits in memory. -/
def Text (s : String) : Prop := s.utf8ByteSize < 2 ^ 64

def Int64 (n : Int) : Prop := -2 ^ 63 ≤ n ∧ n < 2 ^ 63

/-- The hashed columns hold values of their types. -/
@[mk_iff]
structure AuditEventRow.Storable (row : AuditEventRow) : Prop where
  timestamp : Text row.timestamp
  actor : Text row.actor
  kind : Text row.kind
  severity : Text row.severity
  operation_id : ∀ s ∈ row.operation_id, Text s
  agent_id : ∀ s ∈ row.agent_id, Text s
  resource_id : ∀ s ∈ row.resource_id, Text s
  drift_id : ∀ n ∈ row.drift_id, Int64 n
  payload_json : Text row.payload_json

instance (s : String) : Decidable (Text s) := inferInstanceAs (Decidable (_ < _))

instance (n : Int) : Decidable (Int64 n) := inferInstanceAs (Decidable (_ ∧ _))

instance (row : AuditEventRow) : Decidable row.Storable := decidable_of_iff' _ (AuditEventRow.storable_iff row)

/-- The hexadecimal form of 32 bytes. -/
def HexDigest (text : String) : Prop :=
  text.length = 64 ∧ ∀ c ∈ text.toList, c ∈ "0123456789abcdef".toList

private theorem div_of_byte {x y shift : Nat} (hhigh : x / 2 ^ (shift + 8) = y / 2 ^ (shift + 8))
    (hbyte : UInt8.ofNat (x / 2 ^ shift % 256) = UInt8.ofNat (y / 2 ^ shift % 256)) : x / 2 ^ shift = y / 2 ^ shift := by
  rw [Nat.pow_add, ← Nat.div_div_eq_div_mul, ← Nat.div_div_eq_div_mul] at hhigh
  have hnat : x / 2 ^ shift % 256 = y / 2 ^ shift % 256 := by
    simpa using congrArg UInt8.toNat hbyte
  omega

private theorem be_bytes_mod {m n : Int} (h : be_bytes m = be_bytes n) : m % 2 ^ 64 = n % 2 ^ 64 := by
  simp only [be_bytes, List.map_cons, List.map_nil, List.cons.injEq, and_true] at h
  obtain ⟨h7, h6, h5, h4, h3, h2, h1, h0⟩ := h
  have hhigh : (m % 2 ^ 64).toNat / 2 ^ 64 = (n % 2 ^ 64).toNat / 2 ^ 64 := by
    rw [Nat.div_eq_of_lt (by omega), Nat.div_eq_of_lt (by omega)]
  have hall := div_of_byte (div_of_byte (div_of_byte (div_of_byte (div_of_byte (div_of_byte (div_of_byte
    (div_of_byte hhigh h7) h6) h5) h4) h3) h2) h1) h0
  rw [Nat.pow_zero, Nat.div_one, Nat.div_one] at hall
  omega

/-- The bytes of a text. -/
def bytes (s : String) : List UInt8 := s.toUTF8.data.toList

private theorem bytes_inj {s s' : String} (h : bytes s = bytes s') : s = s' := by
  refine String.toByteArray_inj.mp (ByteArray.ext ?_)
  exact Array.toList_inj.mp h

private theorem length_be_bytes (n : Int) : (be_bytes n).length = 8 := rfl

private theorem int64_delimits : SelfDelimiting Int64 be_bytes := by
  refine of_length length_be_bytes fun m n hm hn h => ?_
  have hmod := be_bytes_mod h
  unfold Int64 at hm hn
  omega

private theorem size_delimits : SelfDelimiting (fun n : Nat => n < 2 ^ 64) fun n : Nat => be_bytes n := by
  refine of_length (fun n => length_be_bytes n) fun m n hm hn h => ?_
  have hmod := be_bytes_mod h
  omega

private theorem write_field_delimits : SelfDelimiting Text write_field :=
  length_prefixed size_delimits fun _ _ => bytes_inj

private theorem write_optional_str_delimits : SelfDelimiting (fun o => ∀ s ∈ o, Text s) write_optional_str :=
  tagged (by decide : (1 : UInt8) ≠ 0) write_field_delimits (fun _ => rfl) rfl

private theorem write_optional_int_delimits : SelfDelimiting (fun o => ∀ n ∈ o, Int64 n) write_optional_int :=
  tagged (by decide : (1 : UInt8) ≠ 0) int64_delimits (fun _ => rfl) rfl

private theorem bytes_eq (text : String) : bytes text = text.toList.flatMap String.utf8EncodeChar := by
  have hencode : bytes text = text.toList.utf8Encode.data.toList := by
    rw [String.utf8Encode_toList]
    rfl
  rw [hencode, List.utf8Encode, List.toList_data_toByteArray]

private theorem utf8_hex_digit : ∀ c ∈ "0123456789abcdef".toList,
    (String.utf8EncodeChar c).length = 1 ∧ ∀ b ∈ String.utf8EncodeChar c, b ≠ 0 := by
  have hall : ("0123456789abcdef".toList.all fun c =>
      (String.utf8EncodeChar c).length == 1 && (String.utf8EncodeChar c).all fun b => b != 0) = true := by
    decide
  intro c hc
  simpa using List.all_eq_true.mp hall c hc

private theorem bytes_digest {text : String} (h : HexDigest text) :
    (bytes text).length = 64 ∧ ∀ b ∈ bytes text, b ≠ 0 := by
  obtain ⟨hlength, hdigits⟩ := h
  rw [bytes_eq]
  constructor
  · have hones : text.toList.map (fun c => (String.utf8EncodeChar c).length) = List.replicate text.toList.length 1 :=
      List.eq_replicate_iff.mpr ⟨List.length_map _, fun n hn => by
        obtain ⟨c, hc, rfl⟩ := List.mem_map.mp hn
        exact (utf8_hex_digit c (hdigits c hc)).1⟩
    rw [List.length_flatMap, hones, List.sum_replicate_nat, String.length_toList, hlength]
  · intro b hb
    obtain ⟨c, hc, hbyte⟩ := List.mem_flatMap.mp hb
    exact (utf8_hex_digit c (hdigits c hc)).2 b hbyte

/-- A digest and no digest are told apart by the zeros that follow. -/
private theorem prev_hash_delimits : SelfDelimiting (fun prev_hash => prev_hash = "" ∨ HexDigest prev_hash)
    fun prev_hash => bytes prev_hash ++ be_bytes 0 := by
  have not_zero {digest : String} (hdigest : HexDigest digest) (rest rest' : List UInt8) :
      bytes digest ++ be_bytes 0 ++ rest ≠ bytes "" ++ be_bytes 0 ++ rest' := by
    obtain ⟨hlength, hbytes⟩ := bytes_digest hdigest
    obtain ⟨b, tail, htail⟩ := List.exists_cons_of_length_eq_add_one hlength
    rw [htail]
    intro heq
    exact hbytes b (htail ▸ List.mem_cons_self) (List.cons.inj heq).1
  rintro prev_hash prev_hash' (rfl | hprev) (rfl | hprev') rest rest' h
  · exact ⟨rfl, List.append_cancel_left h⟩
  · exact absurd h.symm (not_zero hprev' rest' rest)
  · exact absurd h (not_zero hprev rest rest')
  · simp only [List.append_assoc] at h
    obtain ⟨hcode, hrest⟩ := List.append_inj h (by rw [(bytes_digest hprev).1, (bytes_digest hprev').1])
    exact ⟨bytes_inj hcode, List.append_cancel_left hrest⟩

/-- Two rows that hash the same bytes carry the same hash of the row before and the same fields. -/
private theorem preimage_inj {row row' : AuditEventRow} (hrow : row.Storable) (hrow' : row'.Storable)
    (hprev : row.prev_hash.getD "" = "" ∨ HexDigest (row.prev_hash.getD ""))
    (hprev' : row'.prev_hash.getD "" = "" ∨ HexDigest (row'.prev_hash.getD "")) (h : row.preimage = row'.preimage) :
    row.prev_hash.getD "" = row'.prev_hash.getD "" ∧ row_to_audit_inputs row = row_to_audit_inputs row' := by
  simp only [AuditEventRow.preimage, List.append_assoc] at h
  rw [← List.append_assoc, ← List.append_assoc (row'.prev_hash.getD "").toUTF8.data.toList] at h
  obtain ⟨hprev_hash, h⟩ := prev_hash_delimits _ _ hprev hprev' _ _ h
  obtain ⟨htimestamp, h⟩ := write_field_delimits _ _ hrow.timestamp hrow'.timestamp _ _ h
  obtain ⟨hactor, h⟩ := write_field_delimits _ _ hrow.actor hrow'.actor _ _ h
  obtain ⟨hkind, h⟩ := write_field_delimits _ _ hrow.kind hrow'.kind _ _ h
  obtain ⟨hseverity, h⟩ := write_field_delimits _ _ hrow.severity hrow'.severity _ _ h
  obtain ⟨hoperation_id, h⟩ := write_optional_str_delimits _ _ hrow.operation_id hrow'.operation_id _ _ h
  obtain ⟨hagent_id, h⟩ := write_optional_str_delimits _ _ hrow.agent_id hrow'.agent_id _ _ h
  obtain ⟨hresource_id, h⟩ := write_optional_str_delimits _ _ hrow.resource_id hrow'.resource_id _ _ h
  obtain ⟨hdrift_id, h⟩ := write_optional_int_delimits _ _ hrow.drift_id hrow'.drift_id _ _ h
  rw [← List.append_nil (write_field (row_to_audit_inputs row).payload_json),
    ← List.append_nil (write_field (row_to_audit_inputs row').payload_json)] at h
  obtain ⟨hpayload, -⟩ := write_field_delimits _ _ hrow.payload_json hrow'.payload_json _ _ h
  refine ⟨hprev_hash, ?_⟩
  simp only [row_to_audit_inputs, AuditRowInputs.mk.injEq]
  exact ⟨htimestamp, hactor, hkind, hseverity, hoperation_id, hagent_id, hresource_id, hdrift_id, hpayload⟩

private theorem chained_concat {crates : Crates} {rows : List AuditEventRow} {row : AuditEventRow}
    (h : Chained crates "" (rows ++ [row])) : Chained crates "" rows ∧ row.prev_hash.getD "" = chain_end "" rows ∧
      row.row_hash.getD "" = crates.sha256_hex row.preimage := by
  obtain ⟨hrows, hprev, hhash, -⟩ := chained_append.mp h
  refine ⟨hrows, hprev, ?_⟩
  rw [hhash, ← hprev]
  rfl

private theorem chain_end_concat (rows : List AuditEventRow) (row : AuditEventRow) :
    chain_end "" (rows ++ [row]) = row.row_hash.getD "" := by
  simp [chain_end]

/-- A chain ends in nothing when it is empty, else in a digest. -/
private theorem chain_end_cases {crates : Crates} {rows : List AuditEventRow} (h : Chained crates "" rows)
    (hhex : ∀ row ∈ rows, HexDigest (crates.sha256_hex row.preimage)) :
    rows = [] ∧ chain_end "" rows = "" ∨ rows ≠ [] ∧ HexDigest (chain_end "" rows) := by
  obtain rfl | ⟨init, row, rfl⟩ := List.eq_nil_or_concat' rows
  · exact .inl ⟨rfl, rfl⟩
  · refine .inr ⟨by simp, ?_⟩
    rw [chain_end_concat, (chained_concat h).2.2]
    exact hhex row (by simp)

private theorem not_digest_empty : ¬ HexDigest "" := by
  rintro ⟨hlength, -⟩
  revert hlength
  decide

/-- What the hash of a row covers. -/
def hashed_fields (row : AuditEventRow) : String × AuditRowInputs :=
  (row.prev_hash.getD "", row_to_audit_inputs row)

/-- From the last row backwards, each hash gives the row it covers, and that row the hash before it. -/
private theorem chains_agree {crates : Crates} {rows rows' : List AuditEventRow}
    (hstored : ∀ row ∈ rows ++ rows', row.Storable)
    (hhex : ∀ row ∈ rows ++ rows', HexDigest (crates.sha256_hex row.preimage))
    (hinjective : ∀ row ∈ rows, ∀ row' ∈ rows',
      crates.sha256_hex row.preimage = crates.sha256_hex row'.preimage → row.preimage = row'.preimage)
    (h : Chained crates "" rows) (h' : Chained crates "" rows') (hlast : chain_end "" rows = chain_end "" rows') :
    rows.map hashed_fields = rows'.map hashed_fields := by
  induction rows using List.reverseRecOn generalizing rows' with
  | nil =>
    obtain ⟨rfl, -⟩ | ⟨-, hdigest⟩ := chain_end_cases h' fun row hrow => hhex row (by simp [hrow])
    · rfl
    · rw [← hlast] at hdigest
      exact absurd hdigest not_digest_empty
  | append_singleton init row ih =>
    obtain rfl | ⟨init', row', rfl⟩ := List.eq_nil_or_concat' rows'
    · obtain ⟨hnil, -⟩ | ⟨-, hdigest⟩ := chain_end_cases h fun row hrow => hhex row (by simp [hrow])
      · simp at hnil
      · rw [hlast] at hdigest
        exact absurd hdigest not_digest_empty
    · obtain ⟨hinit, hprev, hhash⟩ := chained_concat h
      obtain ⟨hinit', hprev', hhash'⟩ := chained_concat h'
      rw [chain_end_concat, chain_end_concat, hhash, hhash'] at hlast
      have hend {rows : List AuditEventRow} (hrows : Chained crates "" rows)
          (hhex : ∀ row ∈ rows, HexDigest (crates.sha256_hex row.preimage)) : chain_end "" rows = "" ∨ HexDigest (chain_end "" rows) :=
        (chain_end_cases hrows hhex).imp And.right And.right
      obtain ⟨hsame, hinputs⟩ := preimage_inj (hstored row (by simp)) (hstored row' (by simp))
        (hprev ▸ hend hinit fun r hr => hhex r (by simp [hr])) (hprev' ▸ hend hinit' fun r hr => hhex r (by simp [hr]))
        (hinjective row (by simp) row' (by simp) hlast)
      have hfields := ih (fun r hr => hstored r (by grind)) (fun r hr => hhex r (by grind))
        (fun r hr r' hr' => hinjective r (by simp [hr]) r' (by simp [hr'])) hinit hinit' (hprev.symm.trans (hsame.trans hprev'))
      simp only [List.map_append, hfields, List.map_cons, List.map_nil, hashed_fields, hsame, hinputs]

private theorem mem_hashed_rows {table : List AuditEventRow} {row : AuditEventRow} (h : row ∈ hashed_rows table) : row ∈ table :=
  List.mem_of_mem_filter ((List.mem_insertionSort _).mp h)

private theorem chain_end_eq (rows : List AuditEventRow) :
    chain_end "" rows = (rows.getLast?.bind AuditEventRow.row_hash).getD "" := by
  obtain rfl | ⟨init, row, rfl⟩ := List.eq_nil_or_concat' rows
  · rfl
  · simp [chain_end]

/-- Two tables in the order of their ids that pass the verification and whose
last hashed rows carry the same hash agree in every hashed row. -/
theorem verified_tables_agree (crates : Crates) {table table' : List AuditEventRow}
    (hids : table.Pairwise fun a b => a.id < b.id) (hids' : table'.Pairwise fun a b => a.id < b.id)
    (hstored : ∀ row ∈ table ++ table', row.Storable)
    (hhex : ∀ row ∈ table ++ table', HexDigest (crates.sha256_hex row.preimage))
    (hinjective : ∀ row ∈ table ++ table', ∀ row' ∈ table ++ table',
      crates.sha256_hex row.preimage = crates.sha256_hex row'.preimage → row.preimage = row'.preimage)
    (hok : audit_verify_chain crates table = none) (hok' : audit_verify_chain crates table' = none)
    (hlast : (hashed_rows table).getLast?.bind AuditEventRow.row_hash = (hashed_rows table').getLast?.bind AuditEventRow.row_hash) :
    (hashed_rows table).length = (hashed_rows table').length ∧
      (hashed_rows table).map hashed_fields = (hashed_rows table').map hashed_fields := by
  have nodup {table : List AuditEventRow} (h : table.Pairwise fun a b => a.id < b.id) : (table.map AuditEventRow.id).Nodup :=
    List.pairwise_map.mpr (h.imp Nat.ne_of_lt)
  have hmem {row : AuditEventRow} (h : row ∈ hashed_rows table ++ hashed_rows table') : row ∈ table ++ table' :=
    List.mem_append.mpr ((List.mem_append.mp h).imp mem_hashed_rows mem_hashed_rows)
  have hfields : (hashed_rows table).map hashed_fields = (hashed_rows table').map hashed_fields := by
    refine chains_agree (fun row h => hstored row (hmem h)) (fun row h => hhex row (hmem h)) (fun row h row' h' => ?_)
      ((audit_verify_chain_eq_none_iff crates (nodup hids)).mp hok)
      ((audit_verify_chain_eq_none_iff crates (nodup hids')).mp hok') ?_
    · exact hinjective row (hmem (by simp [h])) row' (hmem (by simp [h']))
    · rw [chain_end_eq, chain_end_eq, hlast]
  exact ⟨by simpa using congrArg List.length hfields, hfields⟩

section Samples

theorem hex_digest_is_digest (message : List UInt8) : HexDigest (sha2.hex_digest message) := by
  have hdigit : ∀ n < 16, sha2.hex_digit n ∈ "0123456789abcdef".toList := by decide
  have hbytes (width n : Nat) : (sha2.big_endian width n).length = width := by simp [sha2.big_endian]
  constructor
  · have hdigest : (sha2.digest message).length = 32 := by simp [sha2.digest, hbytes]
    have hpairs (bs : List UInt8) :
        (bs.flatMap fun b => [sha2.hex_digit (b.toNat / 16), sha2.hex_digit (b.toNat % 16)]).length = 2 * bs.length := by
      induction bs with
      | nil => rfl
      | cons b bs ih => simp [ih]; omega
    rw [sha2.hex_digest, String.length_ofList, hpairs, hdigest]
  · intro c hc
    simp only [sha2.hex_digest, String.toList_ofList, List.mem_flatMap, List.mem_cons, List.not_mem_nil, or_false] at hc
    obtain ⟨b, -, rfl | rfl⟩ := hc
    · have hlt := b.toNat_lt
      exact hdigit _ (by omega)
    · exact hdigit _ (by omega)

/-- Crates with the real digest. -/
def digest_crates : Crates := { Crates.on [] with sha256_hex := sha2.hex_digest }

def submitted (id : Nat) : AuditEventRow :=
  audit_row digest_crates "1970-01-01T00:00:00Z" "" { actor := "user:alice", kind := "operation.submitted" } id

def approved (id : Nat) : AuditEventRow :=
  audit_row digest_crates "1970-01-01T00:01:00Z" ((submitted 1).row_hash.getD "")
    { actor := "user:bob", kind := "operation.approved" } id

/-- A row from before there were hashes. -/
def legacy (id : Nat) : AuditEventRow := { submitted id with prev_hash := none, row_hash := none }

private theorem preimage_submitted (id : Nat) : (submitted id).preimage = (submitted 1).preimage := by
  simp [AuditEventRow.preimage, submitted, audit_row, row_to_audit_inputs]

private theorem preimage_approved (id : Nat) : (approved id).preimage = (approved 2).preimage := by
  simp [AuditEventRow.preimage, approved, audit_row, row_to_audit_inputs]

private theorem preimage_legacy (id : Nat) : (legacy id).preimage = (submitted 1).preimage := by
  simp [AuditEventRow.preimage, legacy, submitted, audit_row, row_to_audit_inputs]

private theorem chained_submitted (id : Nat) : Chained digest_crates "" [submitted id] :=
  (chained_audit_row ..).mpr trivial

private theorem chained_approved (id id' : Nat) : Chained digest_crates "" [submitted id, approved id'] :=
  (chained_audit_row ..).mpr ((chained_audit_row ..).mpr trivial)

theorem approval_is_evidence :
    (hashed_rows [submitted 1, approved 2]).length = (hashed_rows [legacy 1, submitted 2, approved 5]).length ∧
      (hashed_rows [submitted 1, approved 2]).map hashed_fields =
        (hashed_rows [legacy 1, submitted 2, approved 5]).map hashed_fields := by
  have hsorted : hashed_rows [submitted 1, approved 2] = [submitted 1, approved 2] := rfl
  have hsorted' : hashed_rows [legacy 1, submitted 2, approved 5] = [submitted 2, approved 5] := rfl
  have htwo : ∀ row ∈ [submitted 1, approved 2] ++ [legacy 1, submitted 2, approved 5],
      row.preimage = (submitted 1).preimage ∨ row.preimage = (approved 2).preimage := by
    simp [preimage_submitted 2, preimage_approved 5, preimage_legacy 1]
  have hdistinct : sha2.hex_digest (submitted 1).preimage ≠ sha2.hex_digest (approved 2).preimage := by
    set_option maxRecDepth 2000 in decide
  refine verified_tables_agree digest_crates (by decide) (by decide) (by decide)
    (fun _ _ => hex_digest_is_digest _) (fun row hrow row' hrow' heq => ?_) ?_ ?_ ?_
  · change sha2.hex_digest row.preimage = sha2.hex_digest row'.preimage at heq
    rcases htwo row hrow with h | h <;> rcases htwo row' hrow' with h' | h'
    · exact h.trans h'.symm
    · rw [h, h'] at heq
      exact absurd heq hdistinct
    · rw [h, h'] at heq
      exact absurd heq.symm hdistinct
    · exact h.trans h'.symm
  · rw [audit_verify_chain_eq_none_iff _ (by decide), hsorted]
    exact chained_approved 1 2
  · rw [audit_verify_chain_eq_none_iff _ (by decide), hsorted']
    exact chained_approved 2 5
  · rw [hsorted, hsorted']
    rfl

/-- A row without a hash can be added before another one and is not noticed. -/
theorem legacy_row_is_not_noticed :
    ¬ ∀ (crates : Crates) (table table' : List AuditEventRow),
      table.Pairwise (fun a b => a.id < b.id) → table'.Pairwise (fun a b => a.id < b.id) →
      (∀ row ∈ table ++ table', row.Storable) → (∀ row ∈ table ++ table', HexDigest (crates.sha256_hex row.preimage)) →
      (∀ row ∈ table ++ table', ∀ row' ∈ table ++ table',
        crates.sha256_hex row.preimage = crates.sha256_hex row'.preimage → row.preimage = row'.preimage) →
      audit_verify_chain crates table = none → audit_verify_chain crates table' = none →
      table.getLast?.bind AuditEventRow.row_hash = table'.getLast?.bind AuditEventRow.row_hash →
      table.length = table'.length := by
  intro hall
  have hone : ∀ row ∈ [submitted 1] ++ [legacy 1, submitted 2], row.preimage = (submitted 1).preimage := by
    simp [preimage_submitted 2, preimage_legacy 1]
  have hlength := hall digest_crates [submitted 1] [legacy 1, submitted 2] (by decide) (by decide) (by decide)
    (fun _ _ => hex_digest_is_digest _) (fun row hrow row' hrow' _ => (hone row hrow).trans (hone row' hrow').symm)
    ((audit_verify_chain_eq_none_iff _ (by decide)).mpr (chained_submitted 1))
    ((audit_verify_chain_eq_none_iff _ (by decide)).mpr (chained_submitted 2)) rfl
  revert hlength
  decide

end Samples

end iac_controlplane.store
