import Iac.Agent.Acceptance
import Iac.Collections.SelfDelimiting

open iac_core.protocol self_delimiting

namespace iac_agent.remote

variable {crates : Crates} {dalek : Dalek} {parse : String → Option jiff.Timestamp} {now later : jiff.Timestamp}
variable {agent : Verifier} {env other : AssignmentEnvelope}

/-- The digest that stands for the payload in the message. -/
def payload_sha (crates : Crates) (env : AssignmentEnvelope) : String :=
  crates.sha256_hex (crates.to_string env.payload.to_value).toUTF8.data.toList

/-- The ids have as many line breaks in both envelopes. -/
structure SameLines (env other : AssignmentEnvelope) : Prop where
  assignment_id : env.assignment_id.toList.count '\n' = other.assignment_id.toList.count '\n'
  operation_id : env.operation_id.toList.count '\n' = other.operation_id.toList.count '\n'

private theorem line_delimits (n : Nat) :
    SelfDelimiting (fun field : String => field.toList.count '\n' = n) fun field => field.toList ++ ['\n'] :=
  separated fun _ _ => String.toList_inj.mp

private theorem message_lines (agent_id : String) : (env.message crates agent_id).toList =
    ("iac-assignment-v2\n" ++ agent_id ++ "\n").toList ++ ((env.assignment_id.toList ++ ['\n']) ++
      ((env.operation_id.toList ++ ['\n']) ++ ((env.created_at ++ "\n" ++ env.expires_at.getD "" ++ "\n").toList ++
        ((payload_sha crates env).toList ++ ['\n'])))) := by
  have hbreak : "\n".toList = ['\n'] := by simp
  rw [← hbreak]
  unfold AssignmentEnvelope.message canonical_assignment_message payload_sha
  simp only [String.toList_append, List.append_assoc]

/-- The lines of a message can be told apart when the ids have as many line breaks. -/
theorem fields_of_message (hlength : ∀ bytes, (crates.sha256_hex bytes).length = 64) (hlines : SameLines env other)
    {agent_id : String} (h : env.message crates agent_id = other.message crates agent_id) :
    env.assignment_id = other.assignment_id ∧ env.operation_id = other.operation_id ∧
      payload_sha crates env = payload_sha crates other := by
  have hchars := congrArg String.toList h
  rw [message_lines, message_lines, List.append_cancel_left_eq] at hchars
  obtain ⟨hassignment, hrest⟩ := line_delimits _ _ _ hlines.assignment_id rfl _ _ hchars
  obtain ⟨hoperation, htail⟩ := line_delimits _ _ _ hlines.operation_id rfl _ _ hrest
  have hsize : ∀ env : AssignmentEnvelope, (payload_sha crates env).toList.length = 64 := fun env => hlength _
  obtain ⟨-, hsha⟩ := List.append_inj' htail (by simp [hsize])
  exact ⟨hassignment, hoperation, String.toList_inj.mp (List.append_cancel_right hsha)⟩

private theorem check_signature_ok {verifier : List UInt8} {message signature : String}
    (h : check_signature dalek verifier message signature = .ok ()) :
    ∃ bytes, dalek.decode signature = some bytes ∧ dalek.verify verifier message bytes = true := by
  unfold check_signature at h
  split at h
  · cases h
  · rename_i bytes hbytes
    split at h
    · cases h
    · split at h
      · exact ⟨bytes, hbytes, ‹_›⟩
      · cases h

/-- Two envelopes that pass under one signature have one message. -/
theorem message_of_signature
    (hsingle : ∀ key message message' signature, dalek.verify key message signature = true →
      dalek.verify key message' signature = true → message = message')
    (hsignature : env.signature = other.signature) (hkey : env.key_id = other.key_id)
    (henv : verify_envelope crates dalek parse now agent env = .ok ())
    (hother : verify_envelope crates dalek parse later agent other = .ok ()) :
    env.message crates agent.agent_id = other.message crates agent.agent_id := by
  obtain ⟨verifier, hverifier, -, -, hsigned⟩ := verify_envelope_ok_iff.mp henv
  obtain ⟨verifier', hverifier', -, -, hsigned'⟩ := verify_envelope_ok_iff.mp hother
  rw [hkey, hverifier'] at hverifier
  obtain rfl := Option.some.inj hverifier
  obtain ⟨bytes, hbytes, hverified⟩ := check_signature_ok hsigned
  obtain ⟨bytes', hbytes', hverified'⟩ := check_signature_ok hsigned'
  rw [hsignature, hbytes'] at hbytes
  obtain rfl := Option.some.inj hbytes
  exact hsingle _ _ _ _ hverified hverified'

/-- A signature binds what the agent acts on exactly when the kind, which is
not signed, is left alone and no line break moves between the ids. -/
theorem signature_binds_unless_kind_or_lines_move
    (hsingle : ∀ key message message' signature, dalek.verify key message signature = true →
      dalek.verify key message' signature = true → message = message')
    (hlength : ∀ bytes, (crates.sha256_hex bytes).length = 64)
    (hdigest : payload_sha crates env = payload_sha crates other →
      crates.to_string env.payload.to_value = crates.to_string other.payload.to_value)
    (hwriter : crates.to_string env.payload.to_value = crates.to_string other.payload.to_value →
      env.payload.to_value = other.payload.to_value)
    (hsignature : env.signature = other.signature) (hkey : env.key_id = other.key_id)
    (henv : verify_envelope crates dalek parse now agent env = .ok ())
    (hother : verify_envelope crates dalek parse later agent other = .ok ()) :
    (env.assignment_id = other.assignment_id ∧ env.operation_id = other.operation_id ∧ env.kind = other.kind ∧
        env.payload = other.payload) ↔ env.kind = other.kind ∧ SameLines env other := by
  have hmessage := message_of_signature hsingle hsignature hkey henv hother
  constructor
  · rintro ⟨hassignment, hoperation, hkind, -⟩
    exact ⟨hkind, by rw [hassignment], by rw [hoperation]⟩
  · rintro ⟨hkind, hlines⟩
    obtain ⟨hassignment, hoperation, hsha⟩ := fields_of_message hlength hlines hmessage
    refine ⟨hassignment, hoperation, hkind, ?_⟩
    have hpayload : env.payload.resources = other.payload.resources := by
      simpa [AssignmentPayload.to_value] using hwriter (hdigest hsha)
    exact congrArg AssignmentPayload.mk hpayload

section Samples

/-- The sample assignment with another kind. -/
def tampered_item : AssignmentEnvelope := { web_item with kind := "destroy" }

private theorem web_single (key : List UInt8) (message message' : String) (signature : List UInt8)
    (h : web_dalek.verify key message signature = true) (h' : web_dalek.verify key message' signature = true) :
    message = message' := by
  simp only [web_dalek, Dalek.on, List.any_cons, List.any_nil, Bool.or_false, Bool.and_eq_true, beq_iff_eq] at h h'
  exact h.1.2.symm.trans h'.1.2

private theorem tampered_item_passes :
    verify_envelope web_crates web_dalek read_midnight (hours_later 0) web_agent tampered_item = .ok () :=
  web_item_passes

private theorem length_web_sha256 (bytes : List UInt8) : (web_crates.sha256_hex bytes).length = 64 := by
  have hreal : web_crates.sha256_hex = sha2.hex_digest := rfl
  rw [hreal]
  exact sha2.length_hex_digest bytes

theorem tampered_item_differs_in_kind :
    (web_item.assignment_id = tampered_item.assignment_id ∧ web_item.operation_id = tampered_item.operation_id ∧
        web_item.kind = tampered_item.kind ∧ web_item.payload = tampered_item.payload ↔
      web_item.kind = tampered_item.kind ∧ SameLines web_item tampered_item) ∧ SameLines web_item tampered_item := by
  have hpayload : tampered_item.payload = web_item.payload := rfl
  have hassignment : tampered_item.assignment_id = web_item.assignment_id := rfl
  have hoperation : tampered_item.operation_id = web_item.operation_id := rfl
  refine ⟨signature_binds_unless_kind_or_lines_move web_single length_web_sha256 ?_ ?_ rfl rfl web_item_passes
    tampered_item_passes, ⟨by rw [hassignment], by rw [hoperation]⟩⟩
  · intro _
    rw [hpayload]
  · intro _
    rw [hpayload]

/-- A changed kind passes. -/
theorem kind_is_not_signed :
    ¬ ∀ (crates : Crates) (dalek : Dalek) (parse : String → Option jiff.Timestamp) (now : jiff.Timestamp) (agent : Verifier)
        (env other : AssignmentEnvelope),
      (∀ key message message' signature, dalek.verify key message signature = true →
        dalek.verify key message' signature = true → message = message') →
      env.signature = other.signature → env.key_id = other.key_id →
      verify_envelope crates dalek parse now agent env = .ok () →
      verify_envelope crates dalek parse now agent other = .ok () →
      env.assignment_id = other.assignment_id ∧ env.operation_id = other.operation_id ∧ env.kind = other.kind ∧
        env.payload = other.payload := by
  intro hall
  have hsame := hall web_crates web_dalek read_midnight (hours_later 0) web_agent web_item tampered_item web_single rfl rfl
    web_item_passes tampered_item_passes
  exact absurd hsame.2.2.1 (by decide)

end Samples

end iac_agent.remote
