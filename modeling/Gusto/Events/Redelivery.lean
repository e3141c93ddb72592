import Gusto.Events.Subscriber
import Gusto.Lib.Delivery
import Gusto.Order.Charge

/-!
# Messages that are delivered again

The queue of the OrderPlaced consumer of escrow-service.  A message stays until it has been deleted;
a message that stays may be delivered again.

* `deliverStep`: one delivery, its handler and its deletion each served or failing;
* `HandledOnce`: the wallets are what they are when every event is handled once;
* `handledOnce_iff`: this holds throughout a run exactly when every debit that is asked for again is
  refused;
* `not_handledOnce`: a deletion that fails, and an order that is debited twice.
-/

set_option autoImplicit false

namespace Gusto.Events

open Effects Delivery
open Gusto.Order (OrderPlacedEvent consumeOrderPlaced Debits)
open Gusto.Escrow (Subscription Subscriptions WalletCall)

/-! ### The queue -/

/-- The wallets, and the numbers of the messages that have not been deleted. -/
structure Inbox where
  wallets : Subscriptions
  waiting : List ℕ

/-- The handler of `registerOrderPlacedConsumer`, with what it throws. -/
def onOrderPlaced (event : OrderPlacedEvent) (t : Subscriptions) : Except Err Unit × Subscriptions :=
  if event.cart.finalTotal.den = 1 then
    let r := (WalletCall.debit event.userId event.cart.finalTotal.num
      event.cart.savingsAchieved.num).prog.eval Escrow.exec none t
    (r.1.map fun _ => (), r.2)
  else (.error (.error "Invalid value provided. Expected Int."), t)

/-- The calls that handle message `n`: each is served, or it fails and has no effect. -/
def serveMessage (n : ℕ) :
    Handler (SubscriberOp OrderPlacedEvent) (fun _ => Unit) Err Inbox (Option Err)
  | some e, _, s => (.error e, s)
  | none, .handler event, s =>
    ((onOrderPlaced event s.wallets).1, { s with wallets := (onOrderPlaced event s.wallets).2 })
  | none, .deleteMessage, s => (.ok (), { s with waiting := s.waiting.erase n })

/-- A delivery: the number of its message, the calls it made, and the inbox before it. -/
structure DeliverNote where
  number : ℕ
  before : Inbox
  events : List (Event Inbox (SubscriberOp OrderPlacedEvent) (Option Err))

variable (decode : String → Except Err (Option OrderPlacedEvent)) (bodies : List String)

/-- Message `n` is delivered, if it has not been deleted. -/
def deliverStep (s : Inbox) (l : ℕ × List (Option Err)) : Option (Inbox × DeliverNote) :=
  if l.1 ∈ s.waiting then
    ((processMessage decode bodies[l.1]?).run (serveMessage l.1) l.2 s).map fun d =>
      (d.state, ⟨l.1, s, d.events⟩)
  else none

/-! ### What is asked -/

/-- The handler has run; it may have refused. -/
def served {σ : Type} (e : Event σ (SubscriberOp OrderPlacedEvent) (Option Err)) : Bool :=
  match e.call, e.choice with
  | .handler _, none => true
  | _, _ => false

/-- The numbers of the messages that were handled, in the order in which they were. -/
def handled (os : List DeliverNote) : List ℕ :=
  (os.filter fun o => o.events.any served).map (·.number)

/-- What the handler of message `n` does. -/
def handle (t : Subscriptions) (n : ℕ) : Subscriptions :=
  match payloadOf decode bodies[n]? with
  | some event => consumeOrderPlaced event t
  | none => t

/-- The wallets are what they are when every event that was handled is handled once. -/
def HandledOnce (s₀ : Inbox) (os : List DeliverNote) (s : Inbox) : Prop :=
  s.wallets = (handled os).eraseDups.foldl (handle decode bodies) s₀.wallets

/-- The debit that a delivery asks for is refused. -/
def Refused (o : DeliverNote) : Prop :=
  ∀ event, payloadOf decode bodies[o.number]? = some event → ¬ Debits event o.before.wallets

/-- Every event that is handled again is refused. -/
def RefusedAgain (os : List DeliverNote) : Prop :=
  ∀ pre o, pre ++ [o] <+: os → o.events.any served → o.number ∈ handled pre →
    Refused decode bodies o

/-! ### One delivery -/

variable {decode bodies}

theorem onOrderPlaced_snd (event : OrderPlacedEvent) (t : Subscriptions) :
    (onOrderPlaced event t).2 = consumeOrderPlaced event t := by
  unfold onOrderPlaced consumeOrderPlaced
  split <;> rfl

/-- A delivery that reaches the handler does what it does, and another leaves the wallets. -/
theorem wallets_of_run {n : ℕ} {s : Inbox} {cs : List (Option Err)}
    {d : Done Inbox (SubscriberOp OrderPlacedEvent) (Option Err) Err Unit}
    (h : (processMessage decode bodies[n]?).run (serveMessage n) cs s = some d) :
    d.state.wallets = if d.events.any served then handle decode bodies s.wallets n
      else s.wallets := by
  have hwlp : (processMessage decode bodies[n]?).wlp (serveMessage n) (fun evs _ s' =>
      s'.wallets = if evs.any served then handle decode bodies s.wallets n else s.wallets) s := by
    cases hp : payloadOf decode bodies[n]? with
    | some event =>
      have hhandle : handle decode bodies s.wallets n = consumeOrderPlaced event s.wallets := by
        unfold handle
        rw [hp]
      rw [processMessage_of_payload hp, hhandle, ← onOrderPlaced_snd]
      rintro (_ | e)
      · simp only [serveMessage]
        rcases (onOrderPlaced event s.wallets).1 with e | a
        · rfl
        · rintro (_ | e) <;> rfl
      · rfl
    | none =>
      rcases processMessage_of_none hp with heq | heq <;> rw [heq]
      · rfl
      · rintro (_ | e) <;> rfl
  exact Prog.wlp_iff_run.mp hwlp cs d h

/-- **One delivery.** -/
theorem deliver_cases {s s' : Inbox} {l : ℕ × List (Option Err)} {o : DeliverNote}
    (h : deliverStep decode bodies s l = some (s', o)) :
    o.before = s ∧ s'.wallets =
      if o.events.any served then handle decode bodies s.wallets o.number else s.wallets := by
  unfold deliverStep at h
  split at h
  · obtain ⟨d, hd, heq⟩ := Option.map_eq_some_iff.mp h
    cases heq
    exact ⟨rfl, wallets_of_run hd⟩
  · cases h

/-- A debit that is asked for changes nothing exactly when it is refused. -/
theorem handle_eq_self_iff {t : Subscriptions} {n : ℕ} :
    handle decode bodies t n = t ↔
      ∀ event, payloadOf decode bodies[n]? = some event → ¬ Debits event t := by
  unfold handle
  cases hp : payloadOf decode bodies[n]? with
  | none => simp
  | some event =>
    simp only [Option.some.injEq, forall_eq']
    rcases Order.consume_cases event t with ⟨m, sub, hpos, hm, hrow, hle, hcons⟩ | ⟨hnot, hcons⟩
    · have hdebits : Debits event t := ⟨m, hpos, hm, sub, hrow, hle⟩
      refine ⟨fun heq => absurd ?_ (lt_irrefl m), fun hnot => absurd hdebits hnot⟩
      have hsub := congrFun (hcons.symm.trans heq) event.userId
      rw [Function.update_self, hrow, Option.some.injEq] at hsub
      have hbal := congrArg Subscription.currentBalance hsub
      simp only at hbal
      omega
    · exact ⟨fun _ => hnot, fun _ => hcons⟩

/-! ### Runs -/

theorem handled_concat (os : List DeliverNote) (o : DeliverNote) :
    handled (os ++ [o]) = if o.events.any served then handled os ++ [o.number] else handled os := by
  unfold handled
  rw [List.filter_append, List.map_append]
  by_cases h : o.events.any served <;> simp [h]

variable {s₀ s : Inbox} {os : List DeliverNote}

/-- The wallets are what the handlers have made of them. -/
theorem wallets_eq (hr : Run (deliverStep decode bodies) anyStep s₀ s os) :
    s.wallets = (handled os).foldl (handle decode bodies) s₀.wallets := by
  induction hr with
  | nil => rfl
  | @snoc s s' os o l hr _ hs ih =>
    obtain ⟨-, hstep⟩ := deliver_cases hs
    rw [hstep, handled_concat]
    split
    · rw [List.foldl_append, ← ih]
      rfl
    · exact ih

theorem handledOnce_iff_atMostOnce (hr : Run (deliverStep decode bodies) anyStep s₀ s os) :
    HandledOnce decode bodies s₀ os s ↔
      AtMostOnce (handle decode bodies) s₀.wallets (handled os) := by
  unfold HandledOnce AtMostOnce
  rw [wallets_eq hr]

theorem refusedAgain_concat {o : DeliverNote} :
    RefusedAgain decode bodies (os ++ [o]) ↔ RefusedAgain decode bodies os ∧
      (o.events.any served → o.number ∈ handled os → Refused decode bodies o) := by
  constructor
  · intro h
    exact ⟨fun pre o' hpre => h pre o' (hpre.trans (List.prefix_append _ _)),
      h os o (List.prefix_refl _)⟩
  · rintro ⟨h, hlast⟩ pre o' hpre
    rcases List.prefix_concat_iff.mp hpre with heq | hpre
    · obtain ⟨rfl, heq'⟩ := List.append_inj' heq rfl
      cases heq'
      exact hlast
    · exact h pre o' hpre

/-- A step keeps the schedule harmless exactly when it is not a debit that was made before. -/
theorem atMostOnce_step {s' : Inbox} {o : DeliverNote} {l : ℕ × List (Option Err)}
    (hr : Run (deliverStep decode bodies) anyStep s₀ s os)
    (hs : deliverStep decode bodies s l = some (s', o))
    (h : AtMostOnce (handle decode bodies) s₀.wallets (handled os)) :
    AtMostOnce (handle decode bodies) s₀.wallets (handled (os ++ [o])) ↔
      (o.events.any served → o.number ∈ handled os → Refused decode bodies o) := by
  obtain ⟨hbefore, -⟩ := deliver_cases hs
  rw [handled_concat]
  by_cases hserved : o.events.any served
  · rw [if_pos hserved]
    by_cases hmem : o.number ∈ handled os
    · rw [h.again hmem, ← wallets_eq hr, handle_eq_self_iff, ← hbefore]
      exact ⟨fun hrefused _ _ => hrefused, fun himp => himp hserved hmem⟩
    · exact ⟨fun _ _ hmem' => absurd hmem' hmem, fun _ => h.first hmem⟩
  · rw [if_neg hserved]
    exact ⟨fun _ hserved' => absurd hserved' hserved, fun _ => h⟩

/-- At every moment of a run the events have been handled once, exactly when every debit that is asked
for again is refused. -/
theorem atMostOnce_iff (hr : Run (deliverStep decode bodies) anyStep s₀ s os) :
    (∀ pre, pre <+: os → AtMostOnce (handle decode bodies) s₀.wallets (handled pre)) ↔
      RefusedAgain decode bodies os := by
  induction hr with
  | nil =>
    constructor
    · intro _ pre o hpre
      simp at hpre
    · intro _ pre hpre
      rw [List.prefix_nil.mp hpre]
      exact atMostOnce_nil
  | @snoc s s' os o l hr _ hs ih =>
    rw [refusedAgain_concat, ← ih]
    constructor
    · intro hall
      have hos : ∀ pre, pre <+: os → AtMostOnce (handle decode bodies) s₀.wallets (handled pre) :=
        fun pre hpre => hall pre (hpre.trans (List.prefix_append _ _))
      exact ⟨hos, (atMostOnce_step hr hs (hos os (List.prefix_refl _))).mp
        (hall _ (List.prefix_refl _))⟩
    · rintro ⟨hos, hlast⟩ pre hpre
      rcases List.prefix_concat_iff.mp hpre with rfl | hpre
      · exact (atMostOnce_step hr hs (hos os (List.prefix_refl _))).mpr hlast
      · exact hos pre hpre

/-- **When deliveries that are repeated are harmless.** In any run, the wallets are at every moment what
handling each event once makes of them, exactly when every debit that is asked for again is refused. -/
theorem handledOnce_iff (hr : Run (deliverStep decode bodies) anyStep s₀ s os) :
    (∀ pre s', pre <+: os → Run (deliverStep decode bodies) anyStep s₀ s' pre →
      HandledOnce decode bodies s₀ pre s') ↔ RefusedAgain decode bodies os := by
  rw [← atMostOnce_iff hr]
  constructor
  · intro h pre hpre
    obtain ⟨s', hr'⟩ := hr.of_prefix hpre
    exact (handledOnce_iff_atMostOnce hr').mp (h pre s' hpre hr')
  · intro h pre s' hpre hr'
    exact (handledOnce_iff_atMostOnce hr').mpr (h pre hpre)

/-! ### A deletion that fails -/

/-- The message of one order, of 250 paise. -/
def decodeOne (text : String) : Except Err (Option OrderPlacedEvent) :=
  if text = "order-0" then .ok (some ⟨"user-1", 0, Order.smallCart⟩) else .error (.error "SyntaxError")

/-- Its deletion fails, and it is delivered again. -/
def deliveredTwice : List (ℕ × List (Option Err)) :=
  [(0, [none, some (.error "timeout")]), (0, [none, none])]

/-- Wallets with the same balance for every user. -/
def wallets (balance : ℤ) : Subscriptions := fun _ => some
  { totalDeposited := balance, currentBalance := balance, daysLeft := 30,
    dailyAvgLimit := balance / 30 }

/-- A user with 1000 paise pays 250 twice. -/
theorem not_handledOnce :
    ¬ ∀ (decode : String → Except Err (Option OrderPlacedEvent)) (bodies : List String)
      (s₀ s : Inbox) (os : List DeliverNote), Run (deliverStep decode bodies) anyStep s₀ s os →
      s.waiting = [] → HandledOnce decode bodies s₀ os s := by
  intro h
  have hsteps : runSteps (deliverStep decodeOne ["order-0"]) anyStep deliveredTwice
    ⟨wallets 1000, [0]⟩ [] = some (_, _) := rfl
  have honce := h _ _ _ _ _ (Run.of_runSteps .nil hsteps) rfl
  have hbal := congrArg (fun t : Subscriptions => (t "user-1").map (·.currentBalance)) honce
  exact absurd hbal (by decide +kernel)

/-- A user with 400 paise pays 250 once: the second debit is refused. -/
theorem handledOnce_iff_poor :
    ∃ s os, runSteps (deliverStep decodeOne ["order-0"]) anyStep deliveredTwice
        ⟨wallets 400, [0]⟩ [] = some (s, os) ∧
      ((∀ pre s', pre <+: os →
        Run (deliverStep decodeOne ["order-0"]) anyStep ⟨wallets 400, [0]⟩ s' pre →
        HandledOnce decodeOne ["order-0"] ⟨wallets 400, [0]⟩ pre s') ↔
          RefusedAgain decodeOne ["order-0"] os) := by
  have hsteps : runSteps (deliverStep decodeOne ["order-0"]) anyStep deliveredTwice
    ⟨wallets 400, [0]⟩ [] = some (_, _) := rfl
  exact ⟨_, _, hsteps, handledOnce_iff (Run.of_runSteps .nil hsteps)⟩

end Gusto.Events
