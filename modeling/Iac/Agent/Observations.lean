import Mathlib.Data.List.Basic
import Mathlib.Data.List.Induction
import Mathlib.Data.Nat.Notation
import Mathlib.Algebra.GroupWithZero.Nat

namespace iac_agent.remote

variable {α : Type}

def OBSERVATION_PUSH_CHUNK : Nat := 500

/-- The chunks of a slice: each of `size` items, the last one of those that are left. -/
def chunks (size : Nat) : List α → List (List α)
  | [] => []
  | item :: items => (item :: items.take (size - 1)) :: chunks size (items.drop (size - 1))
termination_by items => items.length
decreasing_by
  rw [List.length_drop, List.length_cons]
  omega

def u32_max : Nat := 2 ^ 32 - 1

def u32_try_from_or_max (n : Nat) : UInt32 := .ofNat (min n u32_max)

def saturating_add (a b : UInt32) : UInt32 := .ofNat (min (a.toNat + b.toNat) u32_max)

/-- What comes back for a request: a status, with the body if it can be read, or an error in sending it. -/
inductive Response where
  | status (code : Nat) (body : Option String)
  | failed

def Response.is_success : Response → Bool
  | .status code _ => 200 ≤ code && code < 300
  | .failed => false

def PAYLOAD_TOO_LARGE : Nat := 413

def Response.too_large : Response → Bool
  | .status code _ => code == PAYLOAD_TOO_LARGE
  | .failed => false

inductive PushError where
  /-- "pushing observations" -/
  | pushing
  /-- "control-plane returned {status}: {body}" -/
  | returned (status : Nat) (body : String)

/-- A request with the response to it. -/
structure Exchange (α : Type) where
  chunk : List α
  response : Response

/-- The loop's stack, with the first chunk at its head, its total, and the requests made so far. -/
structure Push (α : Type) where
  stack : List (List α)
  total : UInt32
  log : List (Exchange α)

/-- The body of the loop, on the chunk that was popped. -/
def Push.handle (push : Push α) (chunk : List α) (response : Response) : Except PushError (Push α) :=
  let log := push.log ++ [⟨chunk, response⟩]
  match response with
  | .failed => .error .pushing
  | .status code body =>
    if 200 ≤ code ∧ code < 300 then
      .ok ⟨push.stack, saturating_add push.total (u32_try_from_or_max chunk.length), log⟩
    else if code = PAYLOAD_TOO_LARGE then
      if chunk.length ≤ 1 then .ok ⟨push.stack, push.total, log⟩
      else
        let mid := chunk.length / 2
        .ok ⟨chunk.take mid :: chunk.drop mid :: push.stack, push.total, log⟩
    else .error (.returned code (body.getD ""))

/-- What the server answers to a request, given the requests before it. -/
abbrev Server (α : Type) := List (Exchange α) → List α → Response

/-- The loop, for so many rounds at most. -/
def push_loop (server : Server α) : Nat → Push α → Option (Except PushError UInt32 × List (Exchange α))
  | 0, _ => none
  | fuel + 1, push =>
    match push.stack with
    | [] => some (.ok push.total, push.log)
    | chunk :: stack =>
      let response := server push.log chunk
      match Push.handle { push with stack } chunk response with
      | .error e => some (.error e, push.log ++ [⟨chunk, response⟩])
      | .ok push => push_loop server fuel push

def push_observations (server : Server α) (fuel : Nat) (items : List α) :
    Option (Except PushError UInt32 × List (Exchange α)) :=
  if items.isEmpty then some (.ok 0, [])
  else push_loop server fuel ⟨chunks OBSERVATION_PUSH_CHUNK items, 0, []⟩

/-- The items that the server accepted, in the order of the requests. -/
def accepted (log : List (Exchange α)) : List α :=
  (log.filter fun e => e.response.is_success).flatMap Exchange.chunk

/-- The request was accepted, or refused as too large with one item. -/
def Exchange.settles (e : Exchange α) : Bool :=
  e.response.is_success || (e.response.too_large && e.chunk.length == 1)

/-- The items of these requests, in the order of the requests. -/
def settled (log : List (Exchange α)) : List α :=
  (log.filter Exchange.settles).flatMap Exchange.chunk

/-- Each item is in at most one accepted request, in order; when the push
returns, each was accepted or refused alone, and the total is the number of
those accepted, as far as it fits. -/
structure Delivers (items : List α) (outcome : Except PushError UInt32) (log : List (Exchange α)) : Prop where
  once_in_order : (accepted log).Sublist items
  all_settled : ∀ total, outcome = .ok total → settled log = items
  total_eq : ∀ total, outcome = .ok total → total.toNat = min (accepted log).length u32_max

section Chunks

theorem chunks_flatten (size : Nat) (items : List α) : (chunks size items).flatten = items := by
  induction items using chunks.induct size with
  | case1 => rw [chunks, List.flatten_nil]
  | case2 item items ih => rw [chunks, List.flatten_cons, ih, List.cons_append, List.take_append_drop]

theorem chunks_ne_nil (size : Nat) (items : List α) : ∀ chunk ∈ chunks size items, chunk ≠ [] := by
  induction items using chunks.induct size with
  | case1 => simp [chunks]
  | case2 item items ih =>
    rw [chunks, List.forall_mem_cons]
    exact ⟨List.cons_ne_nil _ _, ih⟩

end Chunks

section Loop

variable {items chunk : List α} {push push' : Push α} {log : List (Exchange α)} {e : Exchange α}

theorem settled_append : settled (log ++ [e]) = settled log ++ if e.settles then e.chunk else [] := by
  rw [settled, List.filter_append, List.flatMap_append, ← settled]
  cases hsettles : e.settles <;> simp [hsettles]

theorem accepted_append : accepted (log ++ [e]) = accepted log ++ if e.response.is_success then e.chunk else [] := by
  rw [accepted, List.filter_append, List.flatMap_append, ← accepted]
  cases hsuccess : e.response.is_success <;> simp [hsuccess]

theorem accepted_sublist (log : List (Exchange α)) : (accepted log).Sublist (settled log) := by
  induction log using List.reverseRecOn with
  | nil => exact List.Sublist.refl _
  | append_singleton log e ih =>
    rw [settled_append, accepted_append]
    refine ih.append ?_
    cases hsuccess : e.response.is_success with
    | true => simp [Exchange.settles, hsuccess]
    | false => simp

theorem saturating_add_toNat (total : UInt32) (n k : Nat) (htotal : total.toNat = min n u32_max) :
    (saturating_add total (u32_try_from_or_max k)).toNat = min (n + k) u32_max := by
  have hbound : u32_max < UInt32.size := by decide
  have htake : (u32_try_from_or_max k).toNat = min k u32_max := UInt32.toNat_ofNat_of_lt' (by omega)
  rw [saturating_add, UInt32.toNat_ofNat_of_lt' (by omega), htake, htotal]
  omega

/-- The items settled so far and those on the stack are the items of the call, in order. -/
structure Sent (items : List α) (push : Push α) : Prop where
  covers : settled push.log ++ push.stack.flatten = items
  nonempty : ∀ chunk ∈ push.stack, chunk ≠ []
  counted : push.total.toNat = min (accepted push.log).length u32_max

/-- The number of requests that the stack can still lead to. -/
def weight (stack : List (List α)) : Nat := (stack.map fun chunk => 2 * chunk.length - 1).sum

theorem weight_cons (chunk : List α) (stack : List (List α)) :
    weight (chunk :: stack) = 2 * chunk.length - 1 + weight stack := by
  simp [weight]

theorem weight_le (stack : List (List α)) : weight stack ≤ 2 * stack.flatten.length := by
  induction stack with
  | nil => exact Nat.le_refl _
  | cons chunk stack ih =>
    rw [weight_cons, List.flatten_cons, List.length_append]
    omega

/-- What a round of the loop keeps, and that it comes closer to the end. -/
theorem Sent.handle {stack : List (List α)} {response : Response} (hsent : Sent items push) (hstack : push.stack = chunk :: stack)
    (hhandle : Push.handle { push with stack } chunk response = .ok push') :
    Sent items push' ∧ weight push'.stack < weight push.stack := by
  obtain ⟨hcovers, hnonempty, hcounted⟩ := hsent
  rw [hstack] at hcovers hnonempty
  rw [List.forall_mem_cons] at hnonempty
  rw [hstack, weight_cons]
  have hlength := List.length_pos_iff.mpr hnonempty.1
  cases response with
  | failed => exact absurd hhandle (by simp [Push.handle])
  | status code body =>
    rw [Push.handle] at hhandle
    split at hhandle
    · next hsuccess =>
      have hok : (Response.status code body).is_success := by simpa [Response.is_success] using hsuccess
      obtain rfl := Except.ok.inj hhandle
      refine ⟨⟨?_, hnonempty.2, ?_⟩, by simp only; omega⟩
      · rw [settled_append, if_pos (by simp [Exchange.settles, hok]), List.append_assoc, ← List.flatten_cons]
        exact hcovers
      · rw [accepted_append, if_pos hok, List.length_append]
        exact saturating_add_toNat _ _ _ hcounted
    · next hfailure =>
      have hnot : (Response.status code body).is_success = false := by simpa [Response.is_success] using hfailure
      have haccepted : accepted (push.log ++ [⟨chunk, .status code body⟩]) = accepted push.log := by
        simp [accepted_append, hnot]
      split at hhandle
      · next hlarge =>
        split at hhandle
        · next hsingle =>
          obtain rfl := Except.ok.inj hhandle
          have hone : chunk.length = 1 := by omega
          refine ⟨⟨?_, hnonempty.2, haccepted ▸ hcounted⟩, by simp only; omega⟩
          have hsettles : (Exchange.mk chunk (.status code body)).settles := by
            simp [Exchange.settles, Response.too_large, hlarge, hone]
          rw [settled_append, if_pos hsettles, List.append_assoc, ← List.flatten_cons]
          exact hcovers
        · next hmany =>
          obtain rfl := Except.ok.inj hhandle
          have hleft : (chunk.take (chunk.length / 2)).length = chunk.length / 2 := by
            rw [List.length_take]
            omega
          have hright : (chunk.drop (chunk.length / 2)).length = chunk.length - chunk.length / 2 := List.length_drop
          refine ⟨⟨?_, ?_, haccepted ▸ hcounted⟩, ?_⟩
          · have hunsettled : (Exchange.mk chunk (.status code body)).settles = false := by
              simp [Exchange.settles, hnot]
              omega
            rw [settled_append, hunsettled, if_neg Bool.false_ne_true, List.append_nil, List.flatten_cons,
              List.flatten_cons, ← List.append_assoc (chunk.take _), List.take_append_drop, ← List.flatten_cons]
            exact hcovers
          · refine List.forall_mem_cons.mpr ⟨?_, List.forall_mem_cons.mpr ⟨?_, hnonempty.2⟩⟩
            · exact List.ne_nil_of_length_pos (by omega)
            · exact List.ne_nil_of_length_pos (by omega)
          · simp only
            rw [weight_cons, weight_cons, hleft, hright]
            omega
      · exact absurd hhandle (by simp)

/-- An answer that ends the loop neither accepts nor settles the chunk. -/
theorem Push.handle_error {response : Response} {err : PushError} (hhandle : push.handle chunk response = .error err) :
    response.is_success = false := by
  cases response with
  | failed => rfl
  | status code body =>
    rw [Push.handle] at hhandle
    by_contra hsuccess
    have hok : 200 ≤ code ∧ code < 300 := by simpa [Response.is_success] using hsuccess
    rw [if_pos hok] at hhandle
    exact absurd hhandle (by simp)

theorem accepted_sublist_of_covers {rest : List α} (h : settled log ++ rest = items) : (accepted log).Sublist items :=
  (accepted_sublist log).trans (h ▸ List.sublist_append_left _ _)

/-- The loop ends, whatever the server answers, within as many rounds as the
weight of its stack and one more. -/
theorem Sent.run (server : Server α) (hsent : Sent items push) : ∃ outcome log,
    (∀ fuel, weight push.stack < fuel → push_loop server fuel push = some (outcome, log)) ∧ Delivers items outcome log := by
  induction hweight : weight push.stack using Nat.strongRecOn generalizing push with
  | ind n ih =>
    cases hstack : push.stack with
    | nil =>
      have hall : settled push.log = items := by
        simpa [hstack] using hsent.covers
      refine ⟨.ok push.total, push.log, fun fuel hfuel => ?_, ?_⟩
      · obtain ⟨fuel, rfl⟩ := Nat.exists_eq_add_of_lt hfuel
        rw [push_loop, hstack]
      · refine ⟨hall ▸ accepted_sublist _, fun _ _ => hall, fun total htotal => ?_⟩
        rw [← Except.ok.inj htotal]
        exact hsent.counted
    | cons chunk stack =>
      cases hhandle : Push.handle { push with stack } chunk (server push.log chunk) with
      | error err =>
        refine ⟨.error err, push.log ++ [⟨chunk, server push.log chunk⟩], fun fuel hfuel => ?_, ?_, by simp, by simp⟩
        · obtain ⟨fuel, rfl⟩ := Nat.exists_eq_add_of_lt hfuel
          rw [push_loop, hstack]
          simp only [hhandle]
        · rw [accepted_append, Push.handle_error hhandle, if_neg Bool.false_ne_true, List.append_nil]
          exact accepted_sublist_of_covers hsent.covers
      | ok next =>
        obtain ⟨hnext, hless⟩ := hsent.handle hstack hhandle
        obtain ⟨outcome, log, hrun, hdelivers⟩ := ih _ (hweight ▸ hless) hnext rfl
        refine ⟨outcome, log, fun fuel hfuel => ?_, hdelivers⟩
        obtain ⟨fuel, rfl⟩ := Nat.exists_eq_add_of_lt hfuel
        rw [push_loop, hstack]
        simp only [hhandle]
        exact hrun _ (by omega)

end Loop

section Push

variable {items : List α}

private theorem sent_start (items : List α) : Sent items ⟨chunks OBSERVATION_PUSH_CHUNK items, 0, []⟩ where
  covers := by simp [settled, chunks_flatten]
  nonempty := chunks_ne_nil _ _
  counted := by simp [accepted]

/-- Whatever the server answers, the push ends, and it loses and repeats nothing. -/
theorem push_observations_delivers (server : Server α) (items : List α) : ∃ outcome log,
    (∀ fuel, 2 * items.length < fuel → push_observations server fuel items = some (outcome, log)) ∧
      Delivers items outcome log := by
  cases items with
  | nil =>
    refine ⟨.ok 0, [], fun fuel _ => rfl, List.Sublist.refl _, fun _ _ => rfl, fun total htotal => ?_⟩
    rw [← Except.ok.inj htotal]
    rfl
  | cons item items =>
    obtain ⟨outcome, log, hrun, hdelivers⟩ := (sent_start (item :: items)).run server
    refine ⟨outcome, log, fun fuel hfuel => hrun fuel ?_, hdelivers⟩
    have hweight := weight_le (chunks OBSERVATION_PUSH_CHUNK (item :: items))
    rw [chunks_flatten] at hweight
    exact Nat.lt_of_le_of_lt hweight hfuel

end Push

section Saturation

/-- A server that accepts every request. -/
def accepting : Server Unit := fun _ _ => .status 200 none

private theorem push_loop_accepting {fuel : Nat} {push : Push Unit} {outcome : Except PushError UInt32}
    {log : List (Exchange Unit)} (hlog : ∀ e ∈ push.log, e.response.is_success)
    (hrun : push_loop accepting fuel push = some (outcome, log)) :
    (∃ total, outcome = .ok total) ∧ ∀ e ∈ log, e.response.is_success := by
  induction fuel generalizing push with
  | zero => exact absurd hrun (by simp [push_loop])
  | succ fuel ih =>
    rw [push_loop] at hrun
    split at hrun
    · obtain ⟨rfl, rfl⟩ := Prod.mk.inj (Option.some.inj hrun)
      exact ⟨⟨push.total, rfl⟩, hlog⟩
    · next chunk stack hstack =>
      refine @ih ⟨stack, _, _⟩ (fun e he => ?_) hrun
      obtain hold | hnew := List.mem_append.mp he
      · exact hlog e hold
      · rw [List.mem_singleton.mp hnew]
        rfl

/-- With 2^32 items, all of them accepted, the total is one short. -/
theorem total_of_many_items_saturates : ∃ total log,
    (∀ fuel, 2 * 2 ^ 32 < fuel →
      push_observations accepting fuel (List.replicate (2 ^ 32) ()) = some (.ok total, log)) ∧
    (accepted log).length = 2 ^ 32 ∧ total.toNat ≠ (accepted log).length := by
  have hitems : List.replicate (2 ^ 32) () = () :: List.replicate (2 ^ 32 - 1) () := List.replicate_succ
  obtain ⟨outcome, log, hrun, hdelivers⟩ := (sent_start (List.replicate (2 ^ 32) ())).run accepting
  have hweight := weight_le (chunks OBSERVATION_PUSH_CHUNK (List.replicate (2 ^ 32) ()))
  rw [chunks_flatten, List.length_replicate] at hweight
  obtain ⟨⟨total, rfl⟩, hall⟩ := push_loop_accepting (by simp) (hrun _ (Nat.lt_succ_self _))
  have haccepted : accepted log = settled log := by
    rw [accepted, settled, List.filter_eq_self.mpr hall,
      List.filter_eq_self.mpr fun e he => by simp [Exchange.settles, hall e he]]
  have hlength : (accepted log).length = 2 ^ 32 := by
    rw [haccepted, hdelivers.all_settled total rfl, List.length_replicate]
  refine ⟨total, log, fun fuel hfuel => ?_, hlength, ?_⟩
  · rw [push_observations, hitems]
    exact hitems ▸ hrun fuel (Nat.lt_of_le_of_lt hweight hfuel)
  · have hbound := total.toNat_lt
    omega

end Saturation

end iac_agent.remote
