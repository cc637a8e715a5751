import Mathlib.Data.List.Nodup
import Mathlib.Data.List.Range
import Mathlib.Data.List.Perm.Basic
import Mathlib.Tactic.Common

/-!
# Numbered calls

A client makes calls, each under the next number, and a server answers them under their numbers.
Messages arrive in the order in which they were sent, but the server works on several calls at a
time, ends them in any order, and may stop to listen or find nobody to answer.

## Main definitions

- `Rpc`: client, server and the two channels
- `Rpc.Sound`: what holds between the calls, the work of the server and the answers
- `Rpc.Faithful`: what of it client and server see

## Main results

- `Rpc.Sound.call`, `notify`, `accept`, `skip`, `finish`, `deliver`: each step keeps it
- `Rpc.Sound.faithful`
-/

/-- What the client sends: calls, and notices without an answer. -/
inductive Rpc.Message (Call Notice : Type*)
  | call (id : ℕ) (c : Call)
  | notice (n : Notice)

structure Rpc (Call Notice Outcome Answer : Type*) where
  callSeq : ℕ
  /-- The calls of the client that have no answer yet. -/
  pending : List ℕ
  toServer : List (Rpc.Message Call Notice)
  /-- The calls that the server works on. -/
  running : List (ℕ × Call)
  toClient : List (ℕ × Answer)
  /-- For statements only, as what follows: the calls that were made. -/
  made : List (ℕ × Call)
  /-- The calls that the server has begun to work on. -/
  started : List (ℕ × Call)
  /-- The calls that have ended, with their outcomes. -/
  returned : List (ℕ × Call × Outcome)
  /-- The answers that the client has taken. -/
  answers : List (ℕ × Answer)

namespace Rpc

variable {Call Notice Outcome Answer : Type*}

section Steps

def idle : Rpc Call Notice Outcome Answer :=
  ⟨0, [], [], [], [], [], [], [], []⟩

/-- The calls among some messages. -/
def calls (messages : List (Message Call Notice)) : List (ℕ × Call) :=
  messages.filterMap fun
    | .call id c => some (id, c)
    | .notice _ => none

/-- Make a call, which may fail to be sent. -/
def call (r : Rpc Call Notice Outcome Answer) (c : Call) (sent : Bool) :
    Rpc Call Notice Outcome Answer :=
  let id := r.callSeq + 1
  { r with
    callSeq := id
    pending := r.pending ++ [id]
    toServer := if sent then r.toServer ++ [.call id c] else r.toServer
    made := r.made ++ [(id, c)] }

def notify (r : Rpc Call Notice Outcome Answer) (n : Notice) : Rpc Call Notice Outcome Answer :=
  { r with toServer := r.toServer ++ [.notice n] }

/-- Begin to work on a call that has arrived, before other messages. -/
def accept (r : Rpc Call Notice Outcome Answer) (id : ℕ) (c : Call)
    (rest : List (Message Call Notice)) : Rpc Call Notice Outcome Answer :=
  { r with
    toServer := rest
    running := r.running ++ [(id, c)]
    started := r.started ++ [(id, c)] }

/-- Take a message from the channel and do nothing. -/
def skip (r : Rpc Call Notice Outcome Answer) : Rpc Call Notice Outcome Answer :=
  { r with toServer := r.toServer.tail }

/-- End a call, and answer it if there is somebody to answer. -/
def finish (answerOf : Outcome → Answer) (r : Rpc Call Notice Outcome Answer) (id : ℕ) (c : Call)
    (outcome : Outcome) (reached : Bool) : Rpc Call Notice Outcome Answer :=
  { r with
    running := r.running.filter fun e => e.1 ≠ id
    toClient := if reached then r.toClient ++ [(id, answerOf outcome)] else r.toClient
    returned := r.returned ++ [(id, c, outcome)] }

/-- Take an answer that has arrived, before others, if its call waits for it. -/
def deliver (r : Rpc Call Notice Outcome Answer) (id : ℕ) (a : Answer)
    (rest : List (ℕ × Answer)) : Rpc Call Notice Outcome Answer :=
  if id ∈ r.pending then
    { r with
      toClient := rest
      pending := r.pending.filter (· ≠ id)
      answers := r.answers ++ [(id, a)] }
  else { r with toClient := rest }

end Steps

/-- What holds between the calls, the work of the server and the answers. -/
structure Sound (answerOf : Outcome → Answer) (r : Rpc Call Notice Outcome Answer) : Prop where
  numbered : r.made.map Prod.fst = List.range' 1 r.callSeq
  inOrder : (r.started ++ calls r.toServer).Sublist r.made
  worked : (r.running ++ r.returned.map fun e => (e.1, e.2.1)).Perm r.started
  replies : (r.answers ++ r.toClient).Sublist (r.returned.map fun e => (e.1, answerOf e.2.2))
  waiting : r.pending = (r.made.map Prod.fst).filter fun id => id ∉ r.answers.map Prod.fst

/-- The server works on the calls in their order, each at most once, and the client gets for each
    call at most one answer, which is the one to this call. -/
structure Faithful (answerOf : Outcome → Answer) (r : Rpc Call Notice Outcome Answer) : Prop where
  distinct : (r.made.map Prod.fst).Nodup
  started : r.started.Sublist r.made
  returned : (r.returned.map Prod.fst).Nodup
  answered : (r.answers.map Prod.fst).Nodup
  matching : ∀ id a, (id, a) ∈ r.answers →
    ∃ c outcome, (id, c) ∈ r.started ∧ (id, c, outcome) ∈ r.returned ∧ a = answerOf outcome
  waiting : ∀ id, id ∈ r.pending ↔ id ∈ r.made.map Prod.fst ∧ id ∉ r.answers.map Prod.fst

variable {answerOf : Outcome → Answer} {r : Rpc Call Notice Outcome Answer} {id : ℕ} {c : Call}

theorem sound_idle (answerOf : Outcome → Answer) :
    Sound answerOf (idle : Rpc Call Notice Outcome Answer) :=
  ⟨rfl, List.Sublist.refl _, List.Perm.refl _, List.Sublist.refl _, rfl⟩

namespace Sound

section Numbers

theorem nodup_made (h : Sound answerOf r) : (r.made.map Prod.fst).Nodup := by
  rw [h.numbered]
  exact List.nodup_range'

theorem started_sublist (h : Sound answerOf r) : r.started.Sublist r.made :=
  (List.sublist_append_left _ _).trans h.inOrder

theorem nodup_worked (h : Sound answerOf r) :
    (r.running.map Prod.fst ++ r.returned.map Prod.fst).Nodup := by
  have hstarted : (r.started.map Prod.fst).Nodup :=
    h.nodup_made.sublist (h.started_sublist.map Prod.fst)
  have hperm := h.worked.map Prod.fst
  rw [List.map_append, List.map_map] at hperm
  exact hperm.nodup_iff.mpr hstarted

theorem nodup_returned (h : Sound answerOf r) : (r.returned.map Prod.fst).Nodup :=
  h.nodup_worked.of_append_right

theorem nodup_replies (h : Sound answerOf r) :
    ((r.answers ++ r.toClient).map Prod.fst).Nodup := by
  have hreturned := h.nodup_returned
  have hnames : (r.returned.map fun e => (e.1, answerOf e.2.2)).map Prod.fst =
      r.returned.map Prod.fst := by
    rw [List.map_map]
    rfl
  rw [← hnames] at hreturned
  exact hreturned.sublist (h.replies.map Prod.fst)

theorem mem_started_of_mem_returned (h : Sound answerOf r) {outcome : Outcome}
    (hmem : (id, c, outcome) ∈ r.returned) : (id, c) ∈ r.started :=
  h.worked.subset (List.mem_append_right _
    (List.mem_map_of_mem (f := fun e => (e.1, e.2.1)) hmem))

/-- A number under way to the client is that of a call without an answer. -/
theorem mem_pending_of_mem_toClient (h : Sound answerOf r) {a : Answer}
    (hmem : (id, a) ∈ r.toClient) : id ∈ r.pending := by
  obtain ⟨⟨_, c, outcome⟩, he, heq⟩ :=
    List.mem_map.mp (h.replies.subset (List.mem_append_right _ hmem))
  obtain ⟨rfl, rfl⟩ := Prod.mk.inj heq
  have hmade := h.started_sublist.subset (h.mem_started_of_mem_returned he)
  rw [h.waiting, List.mem_filter]
  refine ⟨List.mem_map_of_mem (f := Prod.fst) hmade, decide_eq_true fun hanswered => ?_⟩
  have hnodup := h.nodup_replies
  rw [List.map_append] at hnodup
  exact List.disjoint_of_nodup_append hnodup hanswered (List.mem_map_of_mem (f := Prod.fst) hmem)

end Numbers

section Steps

theorem call (h : Sound answerOf r) (c : Call) (sent : Bool) : Sound answerOf (r.call c sent) where
  numbered := by
    show (r.made ++ [(r.callSeq + 1, c)]).map Prod.fst = List.range' 1 (r.callSeq + 1)
    rw [List.map_append, h.numbered, List.range'_1_concat, Nat.add_comm 1]
    rfl
  inOrder := by
    cases sent with
    | false => exact h.inOrder.trans (List.sublist_append_left _ _)
    | true =>
      show (r.started ++ calls (r.toServer ++ [Message.call (r.callSeq + 1) c])).Sublist _
      rw [calls, List.filterMap_append, ← List.append_assoc]
      exact h.inOrder.append (List.Sublist.refl _)
  worked := h.worked
  replies := h.replies
  waiting := by
    have hfresh : r.callSeq + 1 ∉ r.answers.map Prod.fst := by
      intro hmem
      obtain ⟨⟨_, a⟩, he, rfl⟩ := List.mem_map.mp hmem
      obtain ⟨⟨_, c, outcome⟩, hreturned, heq⟩ :=
        List.mem_map.mp (h.replies.subset (List.mem_append_left _ he))
      have hmade := List.mem_map_of_mem (f := Prod.fst)
        (h.started_sublist.subset (h.mem_started_of_mem_returned hreturned))
      rw [h.numbered, List.mem_range'_1] at hmade
      have hid := congrArg Prod.fst heq
      dsimp only at hid hmade
      omega
    show r.pending ++ [r.callSeq + 1] = List.filter _ ((r.made ++ [(r.callSeq + 1, c)]).map Prod.fst)
    rw [List.map_append, List.filter_append, h.waiting]
    congr 1
    exact (List.filter_eq_self.mpr fun id hid => by
      rw [List.mem_singleton.mp hid]
      exact decide_eq_true hfresh).symm

theorem notify (h : Sound answerOf r) (n : Notice) : Sound answerOf (r.notify n) where
  numbered := h.numbered
  inOrder := by
    show (r.started ++ calls (r.toServer ++ [Message.notice n])).Sublist r.made
    rw [calls, List.filterMap_append]
    exact (List.append_nil _).symm ▸ h.inOrder
  worked := h.worked
  replies := h.replies
  waiting := h.waiting

theorem accept (h : Sound answerOf r) {rest : List (Message Call Notice)}
    (hfront : r.toServer = .call id c :: rest) : Sound answerOf (r.accept id c rest) where
  numbered := h.numbered
  inOrder := by
    have horder := h.inOrder
    rw [hfront] at horder
    show (r.started ++ [(id, c)] ++ calls rest).Sublist r.made
    rw [List.append_assoc]
    exact horder
  worked := by
    show (r.running ++ [(id, c)] ++ _).Perm (r.started ++ [(id, c)])
    rw [List.append_assoc]
    refine (List.Perm.append_left _ List.perm_append_comm).trans ?_
    rw [← List.append_assoc]
    exact h.worked.append_right _
  replies := h.replies
  waiting := h.waiting

theorem skip (h : Sound answerOf r) : Sound answerOf r.skip where
  numbered := h.numbered
  inOrder :=
    (List.Sublist.append_left ((List.tail_sublist _).filterMap _) _).trans h.inOrder
  worked := h.worked
  replies := h.replies
  waiting := h.waiting

theorem finish (h : Sound answerOf r) (hrunning : (id, c) ∈ r.running) (outcome : Outcome)
    (reached : Bool) : Sound answerOf (r.finish answerOf id c outcome reached) where
  numbered := h.numbered
  inOrder := h.inOrder
  worked := by
    have hnodup : (r.running.map Prod.fst).Nodup := h.nodup_worked.of_append_left
    have hsplit : r.running.Perm ((id, c) :: r.running.filter fun e => e.1 ≠ id) := by
      have hfilter : r.running.filter (fun e => !decide (e.1 ≠ id)) = [(id, c)] := by
        refine List.perm_singleton.mp ((List.perm_ext_iff_of_nodup
          (hnodup.of_map.filter _) (List.nodup_singleton _)).mpr fun e => ?_)
        rw [List.mem_filter, List.mem_singleton, Bool.not_eq_true', decide_eq_false_iff_not, not_not]
        constructor
        · rintro ⟨he, rfl⟩
          exact List.inj_on_of_nodup_map hnodup he hrunning rfl
        · rintro rfl
          exact ⟨hrunning, rfl⟩
      have hperm := List.filter_append_perm (fun e : ℕ × Call => decide (e.1 ≠ id)) r.running
      rw [hfilter] at hperm
      exact hperm.symm.trans List.perm_append_comm
    show ((r.running.filter fun e => e.1 ≠ id) ++
      (r.returned ++ [(id, c, outcome)]).map fun e => (e.1, e.2.1)).Perm r.started
    rw [List.map_append, ← List.append_assoc]
    refine List.perm_append_comm.trans ?_
    exact (List.Perm.append_right _ hsplit).symm.trans h.worked
  replies := by
    have hmap : (r.finish answerOf id c outcome reached).returned.map
        (fun e => (e.1, answerOf e.2.2)) =
        r.returned.map (fun e => (e.1, answerOf e.2.2)) ++ [(id, answerOf outcome)] :=
      List.map_append
    rw [hmap]
    cases reached with
    | false => exact h.replies.trans (List.sublist_append_left _ _)
    | true =>
      show (r.answers ++ (r.toClient ++ [(id, answerOf outcome)])).Sublist _
      rw [← List.append_assoc]
      exact h.replies.append (List.Sublist.refl _)
  waiting := h.waiting

theorem deliver (h : Sound answerOf r) {a : Answer} {rest : List (ℕ × Answer)}
    (hfront : r.toClient = (id, a) :: rest) : Sound answerOf (r.deliver id a rest) := by
  have hpending : id ∈ r.pending :=
    h.mem_pending_of_mem_toClient (hfront ▸ List.mem_cons_self)
  rw [Rpc.deliver, if_pos hpending]
  refine ⟨h.numbered, h.inOrder, h.worked, ?_, ?_⟩
  · have hreplies := h.replies
    rw [hfront] at hreplies
    show (r.answers ++ [(id, a)] ++ rest).Sublist _
    rw [List.append_assoc]
    exact hreplies
  · show r.pending.filter (· ≠ id) = List.filter _ _
    rw [h.waiting, List.filter_filter]
    refine List.filter_congr fun other _ => ?_
    rw [List.map_append, ← Bool.decide_and]
    refine decide_eq_decide.mpr ?_
    rw [List.mem_append, not_or, List.map_singleton, List.mem_singleton, and_comm]

end Steps

theorem faithful (h : Sound answerOf r) : Faithful answerOf r where
  distinct := h.nodup_made
  started := h.started_sublist
  returned := h.nodup_returned
  answered := by
    have hnodup := h.nodup_replies
    rw [List.map_append] at hnodup
    exact hnodup.of_append_left
  matching := by
    intro id a hmem
    obtain ⟨⟨_, c, outcome⟩, he, heq⟩ :=
      List.mem_map.mp (h.replies.subset (List.mem_append_left _ hmem))
    obtain ⟨rfl, rfl⟩ := Prod.mk.inj heq
    exact ⟨c, outcome, h.mem_started_of_mem_returned he, he, rfl⟩
  waiting := by
    intro id
    rw [h.waiting, List.mem_filter, decide_eq_true_eq]

end Sound

end Rpc
