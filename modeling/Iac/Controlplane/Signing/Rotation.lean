import Iac.Collections.Run
import Iac.Controlplane.Signing
import Iac.Core.Sha256
import Mathlib.Logic.Function.Basic

open iac_controlplane.api iac_controlplane.secrets iac_core.protocol transition

namespace iac_controlplane.signing

/-- An envelope of an answer, with the keys of the set when its `key_id` was read. -/
structure Sent where
  envelope : AssignmentEnvelope
  keys : List (String × List UInt8)

/-- What a mutation of the key set answers with. -/
inductive Answer where
  | rotated (new_id : String)
  | retired (removed : Bool)

/-- Where a call is. A `list_assignments` resolves, signs and names one
envelope after the other. A `rotate` and a `retire` wait for the lock, change
the directory, load the set again and store it. -/
inductive Session where
  | resolving (agent_id : String) (rest : List AssignmentEnvelope) (built : List Sent)
  | resolved (agent_id : String) (env : AssignmentEnvelope) (rest : List AssignmentEnvelope) (built : List Sent)
  | signed (agent_id : String) (env : AssignmentEnvelope) (rest : List AssignmentEnvelope) (built : List Sent)
  | answered (agent_id : String) (items : List Sent)
  | refused (e : ApiError)
  | rotate
  | generate
  | point (new_id : String)
  | retire (key_id : String)
  | check (key_id : String)
  | remove (key_id : String)
  | reload (answer : Answer)
  | store (state : SignerState) (answer : Answer)
  | returned (result : Except String Answer)

/-- The signer, its directory and the calls on it. -/
structure World (ι : Type) where
  dir : KeysDir
  state : SignerState
  locked : Bool := false
  sessions : ι → Session

/-- What a step gets from outside: the answers of the secret backends, and the
id and the secret of a new key. -/
structure Draw where
  registry : Option SecretRegistry := none
  new_id : String := ""
  secret : List UInt8 := []

/-- A call takes its next step, or an operation on a file fails. -/
inductive Action (ι : Type) where
  | advance (i : ι) (draw : Draw)
  | fail (i : ι) (e : String)

variable {ι : Type} [DecidableEq ι]

def World.set_session (w : World ι) (i : ι) (session : Session) : World ι :=
  { w with sessions := Function.update w.sessions i session }

/-- Ends a mutation, whose guard gives the lock back. -/
def World.return (w : World ι) (i : ι) (result : Except String Answer) : World ι :=
  { w with locked := false }.set_session i (.returned result)

def World.advance (crates : Crates) (dalek : Dalek) (w : World ι) (i : ι) (draw : Draw) : Option (World ι) :=
  match w.sessions i with
  | .resolving agent_id [] built => some (w.set_session i (.answered agent_id built))
  | .resolving agent_id (env :: rest) built =>
    match resolve_envelope draw.registry env with
    | .ok env => some (w.set_session i (.resolved agent_id env rest built))
    | .error e => some (w.set_session i (.refused e))
  | .resolved agent_id env rest built =>
    match w.state.sign crates dalek agent_id env with
    | .ok signature => some (w.set_session i (.signed agent_id { env with signature } rest built))
    | .error e => some (w.set_session i (.refused (signing_failed e)))
  | .signed agent_id env rest built =>
    let sent : Sent := ⟨{ env with key_id := w.state.key_id }, w.state.keys⟩
    some (w.set_session i (.resolving agent_id rest (built ++ [sent])))
  | .rotate => if w.locked then none else some ({ w with locked := true }.set_session i .generate)
  | .generate =>
    some ({ w with dir := w.dir.write_key_file draw.new_id draw.secret }.set_session i (.point draw.new_id))
  | .point new_id =>
    some ({ w with dir := w.dir.write_active_pointer new_id }.set_session i (.reload (.rotated new_id)))
  | .retire key_id => if w.locked then none else some ({ w with locked := true }.set_session i (.check key_id))
  | .check key_id =>
    if w.state.active_id = key_id then
      some (w.return i (.error ("cannot retire active key " ++ key_id ++ "; rotate first to elect a new active")))
    else if (w.state.keys.lookup key_id).isNone then some (w.return i (.ok (.retired false)))
    else some (w.set_session i (.remove key_id))
  | .remove key_id =>
    some ({ w with dir := w.dir.remove_file key_id }.set_session i (.reload (.retired true)))
  | .reload answer =>
    match load_set w.dir with
    | .ok state => some (w.set_session i (.store state answer))
    | .error e => some (w.return i (.error e))
  | .store state answer => some ({ w with state }.return i (.ok answer))
  | .answered _ _ | .refused _ | .returned _ => none

def World.step (crates : Crates) (dalek : Dalek) (w : World ι) : Action ι → Option (World ι)
  | .advance i draw => w.advance crates dalek i draw
  | .fail i e =>
    match w.sessions i with
    | .generate | .point _ | .remove _ | .reload _ => some (w.return i (.error e))
    | _ => none

/-- The call has signed an envelope and not read the id of its key. -/
def Session.between : Session → Bool
  | .signed _ _ _ _ => true
  | _ => false

/-- A mutation that makes another key active does so while no call is between
the signature of an envelope and its `key_id`. -/
def undisturbed (w : World ι) : Action ι → Prop
  | .advance i _ =>
    match w.sessions i with
    | .store state _ =>
      (state.active_id = w.state.active_id ∧
        state.keys.lookup state.active_id = w.state.keys.lookup w.state.active_id) ∨
      ∀ j, (w.sessions j).between = false
    | _ => True
  | .fail _ _ => True

/-- The key that the envelope names is the one that has signed it. -/
def Sent.Named (crates : Crates) (dalek : Dalek) (agent_id : String) (sent : Sent) : Prop :=
  ∃ secret, sent.keys.lookup sent.envelope.key_id = some secret ∧
    sent.envelope.signature = dalek.encode (dalek.sign secret (sent.envelope.message crates agent_id))

/-- What is known of a call while `state` is the signer's. -/
def Session.Sound (crates : Crates) (dalek : Dalek) (state : SignerState) : Session → Prop
  | .resolving agent_id _ built | .resolved agent_id _ _ built | .answered agent_id built =>
    ∀ sent ∈ built, sent.Named crates dalek agent_id
  | .signed agent_id env _ built =>
    (∃ secret, state.keys.lookup state.active_id = some secret ∧
      env.signature = dalek.encode (dalek.sign secret (env.message crates agent_id))) ∧
    ∀ sent ∈ built, sent.Named crates dalek agent_id
  | _ => True

section Steps

variable {crates : Crates} {dalek : Dalek} {w u : World ι} {i j : ι}

@[simp] theorem sessions_set_session (session : Session) : (w.set_session i session).sessions i = session := by
  simp [World.set_session]

theorem sessions_set_session_of_ne (session : Session) (hne : j ≠ i) :
    (w.set_session i session).sessions j = w.sessions j := by
  simp [World.set_session, hne]

/-- A step of a call that leaves the signer's state as it is. -/
private theorem sound_set_session {session : Session} (h : ∀ j, (w.sessions j).Sound crates dalek w.state)
    (hstate : u.state = w.state) (hsessions : u.sessions = Function.update w.sessions i session)
    (hsession : session.Sound crates dalek w.state) : ∀ j, (u.sessions j).Sound crates dalek u.state := by
  intro j
  rw [hstate, hsessions]
  by_cases hj : j = i
  · subst hj
    rwa [Function.update_self]
  · rw [Function.update_of_ne hj]
    exact h j

private theorem sign_ok {state : SignerState} {agent_id signature : String} {env : AssignmentEnvelope}
    (h : state.sign crates dalek agent_id env = .ok signature) : ∃ secret,
      state.keys.lookup state.active_id = some secret ∧
        signature = dalek.encode (dalek.sign secret (env.message crates agent_id)) := by
  rw [SignerState.sign, SignerState.try_active_entry] at h
  cases hkey : state.keys.lookup state.active_id with
  | none => simp [hkey] at h
  | some secret =>
    simp only [hkey] at h
    exact ⟨secret, rfl, (Except.ok.inj h).symm⟩

omit [DecidableEq ι] in
/-- A store of the key set, which no call is between two reads of when it makes another key active. -/
private theorem sound_store {state : SignerState} {session : Session} (h : session.Sound crates dalek w.state)
    (hallowed : (state.active_id = w.state.active_id ∧
        state.keys.lookup state.active_id = w.state.keys.lookup w.state.active_id) ∨ session.between = false) :
    session.Sound crates dalek state := by
  cases session with
  | signed agent_id env rest built =>
    obtain ⟨⟨secret, hkey, hsignature⟩, hbuilt⟩ := h
    obtain ⟨-, hsame⟩ | hbetween := hallowed
    · exact ⟨⟨secret, hsame.trans hkey, hsignature⟩, hbuilt⟩
    · cases hbetween
  | _ => exact h

/-- Every call stays sound. -/
theorem sound_of_step {a : Action ι} (h : ∀ j, (w.sessions j).Sound crates dalek w.state) (hallowed : undisturbed w a)
    (hstep : w.step crates dalek a = some u) : ∀ j, (u.sessions j).Sound crates dalek u.state := by
  cases a with
  | fail i e =>
    simp only [World.step] at hstep
    split at hstep
    case h_5 => cases hstep
    all_goals
      obtain rfl := Option.some.inj hstep
      exact sound_set_session h rfl rfl trivial
  | advance i draw =>
    have hi := h i
    simp only [World.step, World.advance] at hstep
    simp only [undisturbed] at hallowed
    cases hs : w.sessions i with
    | resolving agent_id rest built =>
      rw [hs] at hi
      cases rest with
      | nil =>
        simp only [hs] at hstep
        obtain rfl := Option.some.inj hstep
        exact sound_set_session h rfl rfl hi
      | cons env rest =>
        simp only [hs] at hstep
        split at hstep
        · obtain rfl := Option.some.inj hstep
          exact sound_set_session h rfl rfl hi
        · obtain rfl := Option.some.inj hstep
          exact sound_set_session h rfl rfl trivial
    | resolved agent_id env rest built =>
      simp only [hs] at hstep
      rw [hs] at hi
      split at hstep
      · rename_i signature hsign
        obtain rfl := Option.some.inj hstep
        exact sound_set_session h rfl rfl ⟨sign_ok hsign, hi⟩
      · obtain rfl := Option.some.inj hstep
        exact sound_set_session h rfl rfl trivial
    | signed agent_id env rest built =>
      simp only [hs] at hstep
      rw [hs] at hi
      obtain rfl := Option.some.inj hstep
      refine sound_set_session h rfl rfl fun sent hsent => ?_
      obtain hold | hnew := List.mem_append.mp hsent
      · exact hi.2 sent hold
      · obtain rfl := List.mem_singleton.mp hnew
        exact hi.1
    | rotate | retire key_id =>
      simp only [hs] at hstep
      split at hstep
      · cases hstep
      · obtain rfl := Option.some.inj hstep
        exact sound_set_session h rfl rfl trivial
    | generate | point new_id | remove key_id =>
      simp only [hs] at hstep
      obtain rfl := Option.some.inj hstep
      exact sound_set_session h rfl rfl trivial
    | check key_id =>
      simp only [hs] at hstep
      split_ifs at hstep
      all_goals
        obtain rfl := Option.some.inj hstep
        exact sound_set_session h rfl rfl trivial
    | reload answer =>
      simp only [hs] at hstep
      split at hstep
      all_goals
        obtain rfl := Option.some.inj hstep
        exact sound_set_session h rfl rfl trivial
    | store state answer =>
      simp only [hs] at hstep hallowed
      obtain rfl := Option.some.inj hstep
      intro j
      by_cases hj : j = i
      · subst hj
        simp [World.return, Session.Sound]
      · have hsession : (World.return { w with state } i (.ok answer)).sessions j = w.sessions j :=
          sessions_set_session_of_ne _ hj
        rw [hsession]
        exact sound_store (h j) (hallowed.imp_right fun hnone => hnone j)
    | answered agent_id items | refused e | returned result =>
      simp only [hs] at hstep
      cases hstep

end Steps

/-- The calls at the start: requests with what they have fetched, rotations and retirements. -/
inductive Request where
  | list_assignments (agent_id : String) (items : List AssignmentEnvelope)
  | rotate
  | retire (key_id : String)

def Request.session : Request → Session
  | .list_assignments agent_id items => .resolving agent_id items []
  | .rotate => .rotate
  | .retire key_id => .retire key_id

def World.start (dir : KeysDir) (state : SignerState) (requests : ι → Request) : World ι where
  dir
  state
  sessions i := (requests i).session

/-- Every envelope names the key that has signed it as long as no other key
becomes active between its signature and its `key_id`. -/
theorem key_id_names_signing_key {crates : Crates} {dalek : Dalek} {dir : KeysDir} {state : SignerState}
    {requests : ι → Request} {w : World ι}
    (hrun : Run (World.step crates dalek) undisturbed (World.start dir state requests) w)
    {i : ι} {agent_id : String} {items : List Sent} (hanswered : w.sessions i = .answered agent_id items) :
    ∀ sent ∈ items, sent.Named crates dalek agent_id := by
  have hsound : ∀ j, (w.sessions j).Sound crates dalek w.state := by
    refine hrun.invariant (fun j => ?_) fun _ _ _ h hallowed hstep => sound_of_step h hallowed hstep
    change (requests j).session.Sound crates dalek state
    cases requests j with
    | list_assignments agent_id items => exact fun sent hsent => nomatch hsent
    | rotate | retire key_id => trivial
  have hi := hsound i
  rwa [hanswered] at hi

instance (crates : Crates) (dalek : Dalek) (agent_id : String) (sent : Sent) : Decidable (sent.Named crates dalek agent_id) :=
  decidable_of_iff ((sent.keys.lookup sent.envelope.key_id).any (fun secret =>
    sent.envelope.signature == dalek.encode (dalek.sign secret (sent.envelope.message crates agent_id))) = true)
    (by simp [Sent.Named, Option.any_eq_true])

section Samples

def sample_message : String :=
  "iac-assignment-v2\nagent-1\nasg-1\nop-1\n1970-01-01T00:00:00Z\n\n" ++
    "8503f26a4b4fdccf191f0fa6909cc47c2ec137fd81d6821af47bd0e122992b12\n"

/-- The signatures of the message under two keys. -/
def sample_dalek : Dalek := Dalek.on
  [⟨"nWGxne/9WmC6hEr0kuwsxERJxWl7MmkZcDusAxyuf2A=", "11qYAYKxCrfVS/7TyWQHOg7hcvPapiMlrwIaaPcHURo=", sample_message,
    "ff1bCtvUY64+GLpzx7s4f8tQ7+4KqK4UYc3o1ABkHmnA8cTuzZb/DdiLFtCN9N1AstjRQ9jemnLrZQuHI0TaDw=="⟩,
   ⟨"TM0Imyj/ltqdtsNG7BFOD1uKMZ81q6Yk2oz27U+4pvs=", "PUAXw+hDiVqStwqnTRt+vJyYLM8uxJaMwM1V8Sr0Zgw=", sample_message,
    "db7CZN1D7y8h7LGOdadXTHmMr9eoTimjnxTR3j3mlZ4g3Oicy+2y0Efi/hEpQNfL0m2d+Kui8Sw6tfO5dEoWCg=="⟩]

def sample_crates : Crates := { Crates.on [] with sha256_hex := sha2.hex_digest }

def sample_envelope : AssignmentEnvelope where
  assignment_id := "asg-1"
  operation_id := "op-1"
  kind := "apply"
  created_at := "1970-01-01T00:00:00Z"
  expires_at := none
  payload := ⟨[]⟩
  key_id := ""
  signature := ""

def first_key : String × List UInt8 :=
  ("01JT2N8Q4V6C0W3Y5Z7A9B1D2E", (base64.decode "nWGxne/9WmC6hEr0kuwsxERJxWl7MmkZcDusAxyuf2A=").getD [])

def second_key : String × List UInt8 :=
  ("01JT2NCX8G0H2J4K6M8N0P2Q4R", (base64.decode "TM0Imyj/ltqdtsNG7BFOD1uKMZ81q6Yk2oz27U+4pvs=").getD [])

def one_key_dir : KeysDir := ⟨"/var/lib/iac/signing-keys", some first_key.1, [first_key]⟩

def one_key : SignerState := ⟨[first_key], first_key.1⟩

/-- A poll of an agent beside a rotation. -/
def poll_and_rotate : Bool → Request
  | false => .list_assignments "agent-1" [sample_envelope]
  | true => .rotate

def poll (n : Nat) : List (Action Bool) := List.replicate n (.advance false {})

def rotate_to_second : List (Action Bool) :=
  List.replicate 5 (.advance true { new_id := second_key.1, secret := second_key.2 })

/-- The answer of the poll. -/
def poll_answer (w : World Bool) : Option (String × List Sent) :=
  match w.sessions false with
  | .answered agent_id items => some (agent_id, items)
  | _ => none

private theorem answered_of_poll_answer {w : World Bool} {answer : String × List Sent} (h : poll_answer w = some answer) :
    w.sessions false = .answered answer.1 answer.2 := by
  unfold poll_answer at h
  split at h
  · obtain rfl := Option.some.inj h
    assumption
  · cases h

/-- The condition on two calls, computed. -/
def undisturbed_of_two (w : World Bool) : Action Bool → Bool
  | .advance i _ =>
    match w.sessions i with
    | .store _ _ => !(w.sessions false).between && !(w.sessions true).between
    | _ => true
  | .fail _ _ => true

private theorem undisturbed_of_check (w : World Bool) (a : Action Bool) (h : undisturbed_of_two w a = true) :
    undisturbed w a := by
  cases a with
  | fail i e => trivial
  | advance i draw =>
    simp only [undisturbed_of_two] at h
    simp only [undisturbed]
    split
    · rename_i state answer hs
      simp only [hs, Bool.and_eq_true, Bool.not_eq_true'] at h
      exact .inr fun j => by cases j <;> simp [h]
    · trivial

/-- A poll before the rotation is answered under the first key, and the second one is active after it. -/
theorem poll_before_rotation_names_first_key : ∃ (w : World Bool) (items : List Sent),
    (w.sessions false = .answered "agent-1" items ∧ w.state.active_id = second_key.1 ∧
      ∃ sent ∈ items, sent.envelope.key_id = first_key.1) ∧
    ∀ sent ∈ items, sent.Named sample_crates sample_dalek "agent-1" := by
  have hfollow : (follow (World.step sample_crates sample_dalek) undisturbed_of_two
      (World.start one_key_dir one_key poll_and_rotate) (poll 4 ++ rotate_to_second)).any (fun w =>
        w.state.active_id == second_key.1 && (poll_answer w).any fun answer =>
          answer.1 == "agent-1" && answer.2.any fun sent => sent.envelope.key_id == first_key.1) = true := by
    decide
  obtain ⟨w, hrun, hcheck⟩ := run_of_follow undisturbed_of_check hfollow
  obtain ⟨hactive, hpoll⟩ := Bool.and_eq_true_iff.mp hcheck
  obtain ⟨⟨agent_id, items⟩, hanswer, hsent⟩ := (Option.any_eq_true _ _).mp hpoll
  obtain ⟨hagent, hkey⟩ := Bool.and_eq_true_iff.mp hsent
  obtain rfl : agent_id = "agent-1" := eq_of_beq hagent
  obtain ⟨sent, hmem, hfirst⟩ := List.any_eq_true.mp hkey
  have hanswered := answered_of_poll_answer hanswer
  exact ⟨w, items, ⟨hanswered, eq_of_beq hactive, sent, hmem, eq_of_beq hfirst⟩, key_id_names_signing_key hrun hanswered⟩

private theorem sample_envelope_message : sample_envelope.message sample_crates "agent-1" = sample_message := by
  have hpayload : sample_crates.to_string sample_envelope.payload.to_value = "\x7b\"resources\":[]\x7d" := by rfl
  have hdigest : sample_crates.sha256_hex "\x7b\"resources\":[]\x7d".toUTF8.data.toList =
      "8503f26a4b4fdccf191f0fa6909cc47c2ec137fd81d6821af47bd0e122992b12" := by
    rfl
  calc sample_envelope.message sample_crates "agent-1"
    _ = "iac-assignment-v2\n" ++ "agent-1" ++ "\n" ++ "asg-1" ++ "\n" ++ "op-1" ++ "\n" ++ "1970-01-01T00:00:00Z" ++ "\n" ++
          "" ++ "\n" ++
          sample_crates.sha256_hex (sample_crates.to_string sample_envelope.payload.to_value).toUTF8.data.toList ++ "\n" := rfl
    _ = "iac-assignment-v2\n" ++ "agent-1" ++ "\n" ++ "asg-1" ++ "\n" ++ "op-1" ++ "\n" ++ "1970-01-01T00:00:00Z" ++ "\n" ++
          "" ++ "\n" ++ sample_crates.sha256_hex "\x7b\"resources\":[]\x7d".toUTF8.data.toList ++ "\n" := by rw [hpayload]
    _ = "iac-assignment-v2\n" ++ "agent-1" ++ "\n" ++ "asg-1" ++ "\n" ++ "op-1" ++ "\n" ++ "1970-01-01T00:00:00Z" ++ "\n" ++
          "" ++ "\n" ++ "8503f26a4b4fdccf191f0fa6909cc47c2ec137fd81d6821af47bd0e122992b12" ++ "\n" :=
        congrArg (_ ++ · ++ "\n") hdigest
    _ = sample_message := by rfl

private def first_signed : Signed :=
  ⟨"nWGxne/9WmC6hEr0kuwsxERJxWl7MmkZcDusAxyuf2A=", "11qYAYKxCrfVS/7TyWQHOg7hcvPapiMlrwIaaPcHURo=", sample_message,
    "ff1bCtvUY64+GLpzx7s4f8tQ7+4KqK4UYc3o1ABkHmnA8cTuzZb/DdiLFtCN9N1AstjRQ9jemnLrZQuHI0TaDw=="⟩

private def second_signed : Signed :=
  ⟨"TM0Imyj/ltqdtsNG7BFOD1uKMZ81q6Yk2oz27U+4pvs=", "PUAXw+hDiVqStwqnTRt+vJyYLM8uxJaMwM1V8Sr0Zgw=", sample_message,
    "db7CZN1D7y8h7LGOdadXTHmMr9eoTimjnxTR3j3mlZ4g3Oicy+2y0Efi/hEpQNfL0m2d+Kui8Sw6tfO5dEoWCg=="⟩

private def first_bytes : first_signed.Bytes where
  secret := sample_secret
  public_key := sample_public_key
  signature :=
    [125, 253, 91, 10, 219, 212, 99, 174, 62, 24, 186, 115, 199, 187, 56, 127, 203, 80, 239, 238, 10, 168,
     174, 20, 97, 205, 232, 212, 0, 100, 30, 105, 192, 241, 196, 238, 205, 150, 255, 13, 216, 139, 22, 208,
     141, 244, 221, 64, 178, 216, 209, 67, 216, 222, 154, 114, 235, 101, 11, 135, 35, 68, 218, 15]
  secret_eq := encode_sample_secret
  public_key_eq := encode_sample_public_key
  signature_eq := by set_option maxRecDepth 2000 in rfl
  length := by rfl

private def second_bytes : second_signed.Bytes where
  secret :=
    [76, 205, 8, 155, 40, 255, 150, 218, 157, 182, 195, 70, 236, 17, 78, 15, 91, 138, 49, 159, 53, 171, 166,
     36, 218, 140, 246, 237, 79, 184, 166, 251]
  public_key :=
    [61, 64, 23, 195, 232, 67, 137, 90, 146, 183, 10, 167, 77, 27, 126, 188, 156, 152, 44, 207, 46, 196,
     150, 140, 192, 205, 85, 241, 42, 244, 102, 12]
  signature :=
    [117, 190, 194, 100, 221, 67, 239, 47, 33, 236, 177, 142, 117, 167, 87, 76, 121, 140, 175, 215, 168, 78,
     41, 163, 159, 20, 209, 222, 61, 230, 149, 158, 32, 220, 232, 156, 203, 237, 178, 208, 71, 226, 254, 17,
     41, 64, 215, 203, 210, 109, 157, 248, 171, 162, 241, 44, 58, 181, 243, 185, 116, 74, 22, 10]
  secret_eq := by rfl
  public_key_eq := by rfl
  signature_eq := by set_option maxRecDepth 2000 in rfl
  length := by rfl

private theorem sample_dalek_eq : sample_dalek = Dalek.on [first_signed, second_signed] := rfl

private def made_by (secret : List UInt8) (s : Signed) : Bool :=
  base64.decode s.secret == some secret && s.message == sample_message

private theorem made_by_iff {secret : List UInt8} {s : Signed} :
    made_by secret s = true ↔ base64.decode s.secret = some secret ∧ s.message = sample_message := by
  rw [made_by, Bool.and_eq_true, beq_iff_eq, beq_iff_eq]

private theorem first_signs : sample_dalek.sign first_bytes.secret sample_message = first_bytes.signature := by
  have htake : made_by first_bytes.secret first_signed = true := made_by_iff.mpr ⟨first_bytes.decode_secret, rfl⟩
  have hfind : [first_signed, second_signed].find? (made_by first_bytes.secret) = some first_signed :=
    List.find?_cons_of_pos htake
  rw [sample_dalek_eq, Dalek.sign_on hfind, first_bytes.decode_signature]
  rfl

private theorem second_signs : sample_dalek.sign second_bytes.secret sample_message = second_bytes.signature := by
  have hskip : ¬ made_by second_bytes.secret first_signed = true := by
    intro h
    have hsecret := first_bytes.decode_secret.symm.trans (made_by_iff.mp h).1
    exact absurd (Option.some.inj hsecret) (by decide)
  have htake : made_by second_bytes.secret second_signed = true := made_by_iff.mpr ⟨second_bytes.decode_secret, rfl⟩
  have hfind : [first_signed, second_signed].find? (made_by second_bytes.secret) = some second_signed :=
    (List.find?_cons_of_neg hskip).trans (List.find?_cons_of_pos htake)
  rw [sample_dalek_eq, Dalek.sign_on hfind, second_bytes.decode_signature]
  rfl

/-- The envelope signed under the first key and named after the second one. -/
def misnamed_envelope : AssignmentEnvelope :=
  { sample_envelope with
    signature := sample_dalek.encode (sample_dalek.sign first_key.2 (sample_envelope.message sample_crates "agent-1"))
    key_id := second_key.1 }

private theorem signatures_differ :
    misnamed_envelope.signature ≠ sample_dalek.encode (sample_dalek.sign second_key.2 sample_message) := by
  have hfirst : first_key.2 = first_bytes.secret := by
    dsimp only [first_key]
    exact first_bytes.getD_decode_secret
  have hsecond : second_key.2 = second_bytes.secret := by
    dsimp only [second_key]
    exact second_bytes.getD_decode_secret
  have hsignature : misnamed_envelope.signature = first_signed.signature := by
    rw [misnamed_envelope, sample_envelope_message, hfirst, first_signs]
    exact first_bytes.signature_eq
  rw [hsignature, hsecond, second_signs]
  intro hsame
  have hsigned : first_signed.signature = second_signed.signature := hsame.trans second_bytes.signature_eq
  exact absurd hsigned (by decide)

/-- A rotation between the signature of an envelope and its `key_id`. -/
theorem rotation_misnames_envelope :
    ¬ ∀ (crates : Crates) (dalek : Dalek) (dir : KeysDir) (state : SignerState) (requests : Bool → Request) (w : World Bool),
      load_set dir = .ok state →
      Run (World.step crates dalek) (fun _ _ => True) (World.start dir state requests) w →
      ∀ i agent_id items, w.sessions i = .answered agent_id items → ∀ sent ∈ items, sent.Named crates dalek agent_id := by
  intro hall
  have hfollow : (follow (World.step sample_crates sample_dalek) (fun _ _ => true)
      (World.start one_key_dir one_key poll_and_rotate) (poll 2 ++ rotate_to_second ++ poll 2)).bind poll_answer =
        some ("agent-1", [⟨misnamed_envelope, [second_key, first_key]⟩]) := by
    rfl
  obtain ⟨w, hw, hanswer⟩ := Option.bind_eq_some_iff.mp hfollow
  have hrun := run_of_follow_from (fun _ _ _ => trivial) Run.start hw
  obtain ⟨secret, hsecret, hsignature⟩ := hall sample_crates sample_dalek one_key_dir one_key poll_and_rotate w rfl hrun
    false _ _ (answered_of_poll_answer hanswer) _ List.mem_cons_self
  obtain rfl : second_key.2 = secret := Option.some.inj hsecret
  have hmessage : misnamed_envelope.message sample_crates "agent-1" = sample_message := sample_envelope_message
  rw [hmessage] at hsignature
  exact absurd hsignature signatures_differ

end Samples

end iac_controlplane.signing
