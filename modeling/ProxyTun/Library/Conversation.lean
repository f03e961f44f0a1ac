import Mathlib.Data.List.Basic

/-!
# Conversations

A client makes one request after another, each depending on the replies so far. It goes on when
its request was delivered and answered as it must be, and gives up otherwise.
-/
namespace ProxyTun.Library

/-- A client: the next request, and how the client goes on after each of its replies. -/
inductive Client (Q R : Type*) where
  | done
  | ask (request : Q) (next : R → Client Q R)

/-- A request and whether it was delivered, or what came back on one. -/
inductive Exchanged (Q R : Type*) where
  | sent (request : Q) (delivered : Bool)
  | received (request : Q) (reply : R)
  deriving DecidableEq, Repr

variable {Q R : Type*} {answers : Q → R → Bool}

/-- A client that goes on as another one when it has made all its requests. -/
def Client.andThen : Client Q R → Client Q R → Client Q R
  | .done, after => after
  | .ask request next, after => .ask request fun reply => (next reply).andThen after

def Client.All (P : Q → Prop) : Client Q R → Prop
  | .done => True
  | .ask request next => P request ∧ ∀ reply, (next reply).All P

def Exchanged.failed (answers : Q → R → Bool) : Exchanged Q R → Bool
  | .sent _ delivered => !delivered
  | .received request reply => !answers request reply

def Exchanged.request? : Exchanged Q R → Option Q
  | .sent request _ => some request
  | .received _ _ => none

def Exchanged.reply? : Exchanged Q R → Option R
  | .sent _ _ => none
  | .received _ reply => some reply

/-- The requests that were sent, delivered or not. -/
def requests (log : List (Exchanged Q R)) : List Q := log.filterMap Exchanged.request?

def replies (log : List (Exchanged Q R)) : List R := log.filterMap Exchanged.reply?

/-- A log of the client, and whether it has made all its requests. -/
inductive Conversation (answers : Q → R → Bool) :
    Client Q R → Bool → List (Exchanged Q R) → Prop
  | finished : Conversation answers .done true []
  | undelivered (request : Q) (next : R → Client Q R) :
      Conversation answers (.ask request next) false [.sent request false]
  | refused (request : Q) (next : R → Client Q R) (reply : R) (h : answers request reply = false) :
      Conversation answers (.ask request next) false
        [.sent request true, .received request reply]
  | answered (request : Q) (next : R → Client Q R) (reply : R) (ok : Bool)
      (log : List (Exchanged Q R)) (h : answers request reply = true)
      (rest : Conversation answers (next reply) ok log) :
      Conversation answers (.ask request next) ok
        (.sent request true :: .received request reply :: log)

namespace Conversation

variable {client : Client Q R} {ok : Bool} {log : List (Exchanged Q R)}

theorem request_mem {P : Q → Prop} (h : Conversation answers client ok log) (hall : client.All P)
    {request : Q} (hmem : request ∈ requests log) : P request := by
  induction h with
  | finished => cases hmem
  | undelivered q next =>
    obtain rfl := List.mem_singleton.mp hmem
    exact hall.1
  | refused q next reply =>
    obtain rfl := List.mem_singleton.mp hmem
    exact hall.1
  | answered q next reply ok log _ _ ih =>
    rcases List.mem_cons.mp hmem with rfl | hmem
    · exact hall.1
    · exact ih (hall.2 reply) hmem

theorem eq_nil_of_failed (h : Conversation answers client ok log)
    {before after : List (Exchanged Q R)} {e : Exchanged Q R} (hlog : log = before ++ e :: after)
    (hfailed : e.failed answers = true) : after = [] := by
  induction h generalizing before with
  | finished => simp at hlog
  | undelivered q next =>
    cases before with
    | nil => exact (List.cons.inj hlog).2.symm
    | cons _ before => simp at hlog
  | refused q next reply =>
    rcases before with _ | ⟨_, _ | ⟨_, before⟩⟩
    · obtain ⟨rfl, -⟩ := List.cons.inj hlog
      cases hfailed
    · exact (List.cons.inj (List.cons.inj hlog).2).2.symm
    · simp at hlog
  | answered q next reply ok log hanswers _ ih =>
    rcases before with _ | ⟨_, _ | ⟨_, before⟩⟩
    · obtain ⟨rfl, -⟩ := List.cons.inj hlog
      cases hfailed
    · obtain ⟨rfl, -⟩ := List.cons.inj (List.cons.inj hlog).2
      rw [Exchanged.failed, hanswers] at hfailed
      cases hfailed
    · exact ih (List.cons.inj (List.cons.inj hlog).2).2

theorem ask_true_iff {request : Q} {next : R → Client Q R} :
    Conversation answers (.ask request next) true log ↔
      ∃ reply rest, answers request reply = true ∧
        log = .sent request true :: .received request reply :: rest ∧
        Conversation answers (next reply) true rest := by
  constructor
  · intro h
    cases h with
    | answered _ _ reply _ rest hanswers hrest => exact ⟨reply, rest, hanswers, rfl, hrest⟩
  · rintro ⟨reply, rest, hanswers, rfl, hrest⟩
    exact .answered request next reply true rest hanswers hrest

theorem andThen {after : Client Q R} {log' : List (Exchanged Q R)}
    (h : Conversation answers client true log) (hafter : Conversation answers after ok log') :
    Conversation answers (client.andThen after) ok (log ++ log') := by
  generalize hok : true = finished at h
  induction h with
  | finished => exact hafter
  | undelivered => cases hok
  | refused => cases hok
  | answered request next reply ok log hanswers _ ih =>
    exact .answered request _ reply _ _ hanswers (ih hok)

theorem andThen_of_false (h : Conversation answers client false log) (after : Client Q R) :
    Conversation answers (client.andThen after) false log := by
  generalize hok : false = finished at h
  induction h with
  | finished => cases hok
  | undelivered request next => exact .undelivered request _
  | refused request next reply hrefused => exact .refused request _ reply hrefused
  | answered request next reply ok log hanswers _ ih =>
    exact .answered request _ reply _ _ hanswers (ih hok)

theorem congr {answers' : Q → R → Bool} {P : Q → Prop}
    (h : Conversation answers client ok log) (hall : client.All P)
    (heq : ∀ request, P request → answers request = answers' request) :
    Conversation answers' client ok log := by
  induction h with
  | finished => exact .finished
  | undelivered request next => exact .undelivered request next
  | refused request next reply hrefused =>
    exact .refused request next reply (by rw [← heq request hall.1, hrefused])
  | answered request next reply ok log hanswers _ ih =>
    exact .answered request next reply _ _ (by rw [← heq request hall.1, hanswers])
      (ih (hall.2 reply))

theorem done_iff : Conversation answers .done ok log ↔ ok = true ∧ log = [] := by
  constructor
  · intro h
    cases h
    exact ⟨rfl, rfl⟩
  · rintro ⟨rfl, rfl⟩
    exact .finished

end Conversation
end ProxyTun.Library
