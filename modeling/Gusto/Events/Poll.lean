import Gusto.Events.Subscriber
import Gusto.Lib.Told
import Gusto.Lib.Translate
import Mathlib.Data.List.Basic
import Mathlib.Logic.Function.Basic

/-!
# The poll loop

`EventSubscriber.on`, `poll` and `stop`, over the queue of one event type: any number of subscribers, each
with any number of calls, their steps interleaved.

A loop is taken for a number of rounds; each of its finite runs is one for enough rounds.

* `kept_until_handled`: a message leaves the queue only when it is of another type, or once the handler has
  taken its payload; the handler is given payloads of messages only;
* `one_loop`: a subscriber that is never stopped has one loop, however often `on` is called.
-/

set_option autoImplicit false

namespace Gusto.Events

open Effects

/-! ### The subscriber -/

/-- A message as it is received. -/
structure Message where
  Body : Option String
  ReceiptHandle : ℕ
  deriving DecidableEq, Repr

/-- The calls of a subscriber, for payloads of type `T`.  `begin` is the first part of `on`: it sets
`isRunning` unless it is set. -/
inductive PollOp (T : Type)
  | begin (subscriber : ℕ)
  | isRunning (subscriber : ℕ)
  | stop (subscriber : ℕ)
  | receive (MaxNumberOfMessages : ℕ)
  | process (receiptHandle : ℕ) (op : SubscriberOp T)
  | sleep

abbrev PollOp.Answer {T : Type} : PollOp T → Type
  | .begin _ => Bool
  | .isRunning _ => Bool
  | .receive _ => Option (List Message)
  | _ => Unit

abbrev PollProg (T α : Type) : Type := Prog (PollOp T) PollOp.Answer Err α

variable {T : Type}

def poll.ask (op : PollOp T) : PollProg T op.Answer := .await op

namespace EventSubscriber

variable (decode : String → Except Err (Option T))

/-- `processMessage` for a message that was received. -/
def process (message : Message) : PollProg T Unit :=
  (processMessage decode message.Body).translate (.process message.ReceiptHandle) fun _ r => r

def processAll : List Message → PollProg T Unit
  | [] => return
  | message :: messages => do
    process decode message
    processAll messages

/-- A round of the loop.  What is thrown is logged, and the loop sleeps. -/
def round : PollProg T Unit :=
  tryCatch
    (do
      let response : Option (List Message) ← poll.ask (.receive 10)
      processAll decode (response.getD []))
    fun _ => poll.ask .sleep

def poll (subscriber : ℕ) : ℕ → PollProg T Unit
  | 0 => return
  | rounds + 1 => do
    let isRunning : Bool ← poll.ask (.isRunning subscriber)
    if isRunning then
      round decode
      poll subscriber rounds

def on (subscriber rounds : ℕ) : PollProg T Unit := do
  let started : Bool ← poll.ask (.begin subscriber)
  if started then poll decode subscriber rounds

def stop (subscriber : ℕ) : PollProg T Unit := poll.ask (.stop subscriber)

end EventSubscriber

/-! ### The queue -/

/-- All messages that were sent, the numbers of those that have not been deleted, and the flags of the
subscribers. -/
structure Sqs where
  bodies : List (Option String)
  waiting : List ℕ
  running : ℕ → Bool

/-- The messages that are sent before a call, those that the queue hands out, whether a deletion is answered
without effect, what is thrown instead of an answer, and whether the call has been served all the same. -/
structure PollChoice where
  arrivals : List (Option String) := []
  batch : List ℕ := []
  ignored : Bool := false
  error : Option Err := none
  served : Bool := false
  deriving DecidableEq, Repr

def Sqs.send (q : Sqs) (arrivals : List (Option String)) : Sqs :=
  { q with
    bodies := q.bodies ++ arrivals
    waiting := q.waiting ++ List.range' q.bodies.length arrivals.length }

/-- The messages that are handed out are in the queue. -/
def Sqs.handOut (q : Sqs) (batch : List ℕ) (max : ℕ) : List Message :=
  ((batch.filter (· ∈ q.waiting)).take max).map fun n => ⟨q.bodies[n]?.join, n⟩

/-- A call that is served. -/
def Sqs.answer (c : PollChoice) (q : Sqs) : (op : PollOp T) → op.Answer × Sqs
  | .begin subscriber => (!q.running subscriber, { q with running := Function.update q.running subscriber true })
  | .isRunning subscriber => (q.running subscriber, q)
  | .stop subscriber => ((), { q with running := Function.update q.running subscriber false })
  | .receive max =>
    (match q.handOut c.batch max with
      | [] => none
      | messages => some messages,
    q)
  | .process n .deleteMessage =>
    ((), if c.ignored then q else { q with waiting := q.waiting.filter (· ≠ n) })
  | .process _ (.handler _) => ((), q)
  | .sleep => ((), q)

/-- The calls that go to the queue, or to the handler, may fail. -/
def PollOp.fallible : PollOp T → Bool
  | .receive _ | .process .. => true
  | _ => false

def Sqs.exec : Handler (PollOp T) PollOp.Answer Err Sqs PollChoice
  | c, op, q =>
    let q := q.send c.arrivals
    match op.fallible, c.error with
    | true, some e => (.error e, if c.served then (q.answer c op).2 else q)
    | _, _ => (.ok (q.answer c op).1, (q.answer c op).2)

def PollOp.stops (subscriber : ℕ) : PollOp T → Bool
  | .stop s => s = subscriber
  | _ => false

/-- What a subscriber is asked for. -/
inductive PollCall
  | on (subscriber rounds : ℕ)
  | stop (subscriber : ℕ)
  deriving DecidableEq, Repr

def PollCall.prog (decode : String → Except Err (Option T)) : PollCall → PollProg T Unit
  | .on subscriber rounds => EventSubscriber.on decode subscriber rounds
  | .stop subscriber => EventSubscriber.stop subscriber

abbrev PollPool (T : Type) : Type := Pool PollCall (PollOp T) PollOp.Answer Err Unit Sqs
abbrev PollNote (T : Type) : Type := Note PollCall Sqs (PollOp T) PollChoice

/-- A thread for each of `calls`, over an empty queue. -/
def polls (decode : String → Except Err (Option T)) (calls : List PollCall) : PollPool T :=
  Pool.start (PollCall.prog decode) calls ⟨[], [], fun _ => false⟩

/-! ### What is asked -/

section Asked

variable (decode : String → Except Err (Option T))

/-- The handler has taken the payload of message `n`. -/
def TakenBy (n : ℕ) (payload : T) (o : PollNote T) : Prop :=
  o.event.call = .process n (.handler payload) ∧ o.event.choice.error = none

/-- A loop was started. -/
def StartedBy (subscriber : ℕ) (o : PollNote T) : Prop :=
  o.event.call = .begin subscriber ∧ o.event.pre.running subscriber = false

/-- The payload of message `n`. -/
def Carries (bodies : List (Option String)) (n : ℕ) (payload : Option T) : Prop :=
  ∃ text, bodies[n]? = some (some text) ∧ text ≠ "" ∧ decode text = .ok payload

/-- A message that may be deleted: it is of another type, or its payload has been taken. -/
def Settled (bodies : List (Option String)) (os : List (PollNote T)) (n : ℕ) : Prop :=
  ∃ payload, Carries decode bodies n payload ∧ ∀ p ∈ payload, ∃ o ∈ os, TakenBy n p o

/-! ### The contract -/

/-- What is known of the queue and of the flags. -/
structure Polled (os : List (PollNote T)) (q : Sqs) : Prop where
  queued : ∀ n < q.bodies.length, n ∈ q.waiting ∨ Settled decode q.bodies os n
  given : ∀ o ∈ os, ∀ n payload, o.event.call = .process n (.handler payload) →
    Carries decode q.bodies n (some payload)
  /-- A subscriber that was never stopped runs once it was started, and was started once. -/
  loops : ∀ subscriber, (∀ o ∈ os, o.event.call ≠ .stop subscriber) →
    (∀ o ∈ os, StartedBy subscriber o → q.running subscriber = true) ∧
    ∀ o ∈ os, ∀ o' ∈ os, StartedBy subscriber o → StartedBy subscriber o' → o.tid = o'.tid

def PollContract : Contract PollCall (PollOp T) Err Unit Sqs PollChoice where
  inv := Polled decode
  rely q q' := q.bodies <+: q'.bodies
  pre tid tag op os q :=
    match op with
    | .process n .deleteMessage => Settled decode q.bodies os n
    | .process n (.handler payload) => Carries decode q.bodies n (some payload)
    | .receive _ => ∃ subscriber rounds, tag = .on subscriber rounds ∧ ∃ o ∈ os, o.tid = tid ∧ StartedBy subscriber o
    | _ => True
  post _ _ _ _ _ := True

end Asked

section Lasting

variable {decode : String → Except Err (Option T)} {bodies bodies' : List (Option String)}
  {os os' : List (PollNote T)} {n : ℕ}

theorem getElem?_of_extended {α : Type} {l l' : List α} {a : α} (h : l <+: l') (ha : l[n]? = some a) :
    l'[n]? = some a := by
  obtain ⟨rest, rfl⟩ := h
  obtain ⟨hlt, -⟩ := List.getElem?_eq_some_iff.mp ha
  rw [List.getElem?_append_left hlt, ha]

theorem Carries.later {payload : Option T} (h : Carries decode bodies n payload) (hb : bodies <+: bodies') :
    Carries decode bodies' n payload := by
  obtain ⟨text, htext, hrest⟩ := h
  exact ⟨text, getElem?_of_extended hb htext, hrest⟩

theorem Settled.later (h : Settled decode bodies os n) (hb : bodies <+: bodies') (hos : os <+: os') :
    Settled decode bodies' os' n := by
  obtain ⟨payload, hcarries, htaken⟩ := h
  refine ⟨payload, hcarries.later hb, fun p hp => ?_⟩
  obtain ⟨o, ho, h⟩ := htaken p hp
  exact ⟨o, hos.subset ho, h⟩

end Lasting

/-! ### What a call does -/

section Calls

variable {c : PollChoice} {op : PollOp T} {q : Sqs}

theorem exec_bodies : (Sqs.exec c op q).2.bodies = q.bodies ++ c.arrivals := by
  have hanswer (q : Sqs) : (q.answer c op).2.bodies = q.bodies := by
    cases op with
    | process n o =>
      cases o with
      | handler payload => rfl
      | deleteMessage =>
        simp only [Sqs.answer]
        split <;> rfl
    | _ => rfl
  unfold Sqs.exec
  dsimp only
  split
  · split
    · rw [hanswer]
      rfl
    · rfl
  · rw [hanswer]
    rfl

variable (op) in
/-- A message stays in the queue unless it is deleted. -/
theorem exec_waiting {n : ℕ} (h : n ∈ (q.send c.arrivals).waiting) :
    n ∈ (Sqs.exec c op q).2.waiting ∨ op = .process n .deleteMessage := by
  have hanswer : n ∈ ((q.send c.arrivals).answer c op).2.waiting ∨ op = .process n .deleteMessage := by
    cases op with
    | process m o =>
      cases o with
      | handler payload => exact .inl h
      | deleteMessage =>
        by_cases hm : n = m
        · exact .inr (by rw [hm])
        · refine .inl ?_
          simp only [Sqs.answer]
          split
          · exact h
          · simpa using ⟨h, hm⟩
    | _ => exact .inl h
  unfold Sqs.exec
  dsimp only
  split
  · split
    · exact hanswer
    · exact .inl h
  · exact hanswer

/-- The flags after a call. -/
def flagsAfter (op : PollOp T) (running : ℕ → Bool) : ℕ → Bool :=
  match op with
  | .begin subscriber => Function.update running subscriber true
  | .stop subscriber => Function.update running subscriber false
  | _ => running

theorem exec_running : (Sqs.exec c op q).2.running = flagsAfter op q.running := by
  have hanswer (q : Sqs) : (q.answer c op).2.running = flagsAfter op q.running := by
    cases op with
    | process n o =>
      cases o with
      | handler payload => rfl
      | deleteMessage =>
        simp only [Sqs.answer]
        split <;> rfl
    | _ => rfl
  unfold Sqs.exec
  dsimp only
  split
  · rename_i hfallible _
    split
    · exact hanswer _
    -- a call that fails is none of those that set a flag
    · cases op <;> first | rfl | cases hfallible
  · exact hanswer _

/-- A flag that is set stays set unless the subscriber is stopped. -/
theorem flagsAfter_iff {subscriber : ℕ} {running : ℕ → Bool} (hop : op ≠ .stop subscriber) :
    flagsAfter op running subscriber = true ↔ running subscriber = true ∨ op = .begin subscriber := by
  cases op with
  | begin s =>
    by_cases hs : s = subscriber
    · subst hs
      simp [flagsAfter]
    · simp [flagsAfter, Function.update_of_ne (Ne.symm hs), hs]
  | stop s =>
    have hs : subscriber ≠ s := fun h => hop (by rw [h])
    simp [flagsAfter, Function.update_of_ne hs]
  | _ => simp [flagsAfter]

/-- What the queue hands out are messages of it. -/
theorem exec_receive {max : ℕ} {messages : Option (List Message)}
    (h : (Sqs.exec c (.receive max : PollOp T) q).1 = .ok messages) :
    ∀ m ∈ messages.getD [], m.Body = (q.bodies ++ c.arrivals)[m.ReceiptHandle]?.join := by
  have hout : ∀ m ∈ (q.send c.arrivals).handOut c.batch max,
      m.Body = (q.bodies ++ c.arrivals)[m.ReceiptHandle]?.join := by
    intro m hm
    obtain ⟨n, -, rfl⟩ := List.mem_map.mp hm
    rfl
  cases he : c.error with
  | some e => simp [Sqs.exec, PollOp.fallible, he] at h
  | none =>
    simp only [Sqs.exec, PollOp.fallible, he, Sqs.answer, Except.ok.injEq] at h
    cases hb : (q.send c.arrivals).handOut c.batch max with
    | nil =>
      rw [hb] at h
      rw [← h]
      exact List.forall_mem_nil _
    | cons m ms =>
      rw [hb] at h hout
      rw [← h]
      exact hout

/-- A message that is sent is in the queue. -/
theorem mem_send {n : ℕ} (h : n < (q.bodies ++ c.arrivals).length) (hn : n < q.bodies.length → n ∈ q.waiting) :
    n ∈ (q.send c.arrivals).waiting := by
  by_cases hlt : n < q.bodies.length
  · exact List.mem_append_left _ (hn hlt)
  · refine List.mem_append_right _ (List.mem_range'_1.mpr ?_)
    rw [List.length_append] at h
    omega

end Calls

/-! ### Soundness -/

section Sound

variable {decode : String → Except Err (Option T)} {tid : ℕ} {tag : PollCall} {os : List (PollNote T)}
  {op : PollOp T} {c : PollChoice} {q : Sqs}

/-- A call that meets its precondition keeps what is known of the queue. -/
theorem Polled.step (h : Polled decode os q) (hpre : (PollContract decode).pre tid tag op os q) :
    Polled decode (os ++ [⟨tid, tag, ⟨q, op, c⟩⟩]) (Sqs.exec c op q).2 := by
  have hlast := List.prefix_append os [(⟨tid, tag, ⟨q, op, c⟩⟩ : PollNote T)]
  have hbodies : q.bodies <+: (Sqs.exec c op q).2.bodies := exec_bodies ▸ List.prefix_append _ _
  refine ⟨fun n hn => ?_, fun o ho n payload hcall => ?_, fun subscriber hnever => ?_⟩
  · rw [exec_bodies] at hn
    by_cases hdone : n < q.bodies.length ∧ Settled decode q.bodies os n
    · exact .inr (hdone.2.later hbodies hlast)
    · have hsent : n ∈ (q.send c.arrivals).waiting :=
        mem_send hn fun hlt => (h.queued n hlt).resolve_right fun hsettled => hdone ⟨hlt, hsettled⟩
      rcases exec_waiting op hsent with hthere | rfl
      · exact .inl hthere
      · exact .inr (Settled.later hpre hbodies hlast)
  · rcases List.mem_append.mp ho with ho | ho
    · exact (h.given o ho n payload hcall).later hbodies
    · rw [List.mem_singleton.mp ho] at hcall
      dsimp only at hcall
      rw [hcall] at hpre
      exact Carries.later hpre hbodies
  · have hnever' : ∀ o ∈ os, o.event.call ≠ .stop subscriber := fun o ho => hnever o (hlast.subset ho)
    have hop : op ≠ .stop subscriber := hnever _ (List.mem_append_right _ (List.mem_singleton_self _))
    obtain ⟨hruns, honce⟩ := h.loops subscriber hnever'
    -- a loop that is started now is the first
    have hfirst (o : PollNote T) (ho : o ∈ os) (hold : StartedBy subscriber o) :
        ¬ StartedBy subscriber (⟨tid, tag, ⟨q, op, c⟩⟩ : PollNote T) :=
      fun hnew => absurd (hruns o ho hold) (by rw [hnew.2]; decide)
    refine ⟨fun o ho hstarted => ?_, fun o ho o' ho' hstarted hstarted' => ?_⟩
    · rw [exec_running, flagsAfter_iff hop]
      rcases List.mem_append.mp ho with ho | ho
      · exact .inl (hruns o ho hstarted)
      · rw [List.mem_singleton.mp ho] at hstarted
        exact .inr hstarted.1
    · rcases List.mem_append.mp ho with ho | ho <;> rcases List.mem_append.mp ho' with ho' | ho'
      · exact honce o ho o' ho' hstarted hstarted'
      · exact absurd (List.mem_singleton.mp ho' ▸ hstarted') (hfirst o ho hstarted)
      · exact absurd (List.mem_singleton.mp ho ▸ hstarted) (hfirst o' ho' hstarted')
      · rw [List.mem_singleton.mp ho, List.mem_singleton.mp ho']

theorem pollContract_sound (decode : String → Except Err (Option T)) : (PollContract decode).Sound Sqs.exec where
  refl _ := List.prefix_refl _
  trans _ _ _ h h' := h.trans h'
  step os q tid tag op c hinv hpre := by
    refine ⟨hinv.step hpre, ?_⟩
    show q.bodies <+: (Sqs.exec c op q).2.bodies
    rw [exec_bodies]
    exact List.prefix_append _ _

end Sound

/-! ### The programs -/

section Programs

variable {decode : String → Except Err (Option T)} {tid : ℕ} {tag : PollCall} {os : List (PollNote T)} {q : Sqs}

/-- What a message without a body, or with one that cannot be read, comes to; and the others. -/
theorem processMessage_cases (decode : String → Except Err (Option T)) (body : Option String) :
    processMessage decode body = .ret () ∨ ∃ text, body = some text ∧ text ≠ "" ∧
      ((decode text = .ok none ∧ processMessage decode body = .call .deleteMessage fun _ => .ret ()) ∨
        ∃ payload, decode text = .ok (some payload) ∧
          processMessage decode body = .call (.handler payload) fun r =>
            match r with
            | .ok _ => .call .deleteMessage fun _ => .ret ()
            | .error _ => .ret ()) := by
  rcases body with _ | text
  · exact .inl rfl
  · by_cases htext : text = ""
    · subst htext
      exact .inl rfl
    · cases hdec : decode text with
      | error e =>
        refine .inl ?_
        unfold processMessage
        split
        · rfl
        · rfl
        · rename_i heq
          cases heq
          simp only [hdec]
          rfl
      | ok payload =>
        refine .inr ⟨text, rfl, htext, ?_⟩
        cases payload with
        | some payload =>
          exact .inr ⟨payload, hdec, processMessage_of_payload (payloadOf_eq htext hdec)⟩
        | none =>
          refine .inl ⟨hdec, ?_⟩
          unfold processMessage
          split
          · rename_i heq
            cases heq
          · rename_i heq
            exact absurd (Option.some.inj heq) htext
          · rename_i heq
            cases heq
            simp only [hdec]
            refine congrArg (Prog.call SubscriberOp.deleteMessage) (funext fun r => ?_)
            cases r <;> rfl

/-- The body of a message is that of its number. -/
def Genuine (bodies : List (Option String)) (m : Message) : Prop :=
  ∀ text, m.Body = some text → bodies[m.ReceiptHandle]? = some (some text)

theorem Genuine.later {bodies bodies' : List (Option String)} {m : Message} (h : Genuine bodies m)
    (hb : bodies <+: bodies') : Genuine bodies' m := fun text htext => getElem?_of_extended hb (h text htext)

variable (q) in
theorem meets_process_bind {m : Message} {f : Unit → PollProg T Unit} (hm : Genuine q.bodies m)
    (h : ∀ os' q', q.bodies <+: q'.bodies → (f ()).Meets (PollContract decode) Sqs.exec tid tag os' q') :
    (EventSubscriber.process decode m >>= f).Meets (PollContract decode) Sqs.exec tid tag os q := by
  unfold EventSubscriber.process
  rcases processMessage_cases decode m.Body with heq | ⟨text, hbody, htext, hcase⟩
  · rw [heq]
    exact h os q (List.prefix_refl _)
  · have hcarries {q' : Sqs} (hq' : q.bodies <+: q'.bodies) {payload : Option T} (hdec : decode text = .ok payload) :
        Carries decode q'.bodies m.ReceiptHandle payload := ⟨text, hm.later hq' text hbody, htext, hdec⟩
    have hnext {q' : Sqs} (hq' : q.bodies <+: q'.bodies) (c : PollChoice) (op : PollOp T) :
        q.bodies <+: (Sqs.exec c op q').2.bodies := hq'.trans (exec_bodies ▸ List.prefix_append _ _)
    rcases hcase with ⟨hdec, heq⟩ | ⟨payload, hdec, heq⟩
    · rw [heq]
      exact fun os' q' _ hq' _ => ⟨⟨none, hcarries hq' hdec, by simp⟩, fun c => h _ _ (hnext hq' c _)⟩
    · rw [heq]
      intro os' q' _ hq' _
      refine ⟨hcarries hq' hdec, fun c => ?_⟩
      have hq'' := hnext hq' c (.process m.ReceiptHandle (.handler payload))
      cases hres : (Sqs.exec c (.process m.ReceiptHandle (.handler payload)) q').1 with
      | error e => exact h _ _ hq''
      | ok a =>
        have hserved : c.error = none := by
          cases he : c.error with
          | none => rfl
          | some e => simp [Sqs.exec, PollOp.fallible, he] at hres
        intro os₂ q₂ hos₂ hq₂ _
        have hq₂' := hq''.trans hq₂
        refine ⟨⟨some payload, hcarries hq₂' hdec, fun p hp => ?_⟩, fun c' => h _ _ (hnext hq₂' c' _)⟩
        obtain rfl := Option.some.inj hp
        exact ⟨_, hos₂.subset (List.mem_append_right _ (List.mem_singleton_self _)), rfl, hserved⟩

theorem meets_processAll (messages : List Message) (hm : ∀ m ∈ messages, Genuine q.bodies m) :
    (EventSubscriber.processAll decode messages).Meets (PollContract decode) Sqs.exec tid tag os q := by
  induction messages generalizing os q with
  | nil => exact fun _ _ _ _ => trivial
  | cons m messages ih =>
    obtain ⟨hfirst, hrest⟩ := List.forall_mem_cons.mp hm
    exact meets_process_bind q hfirst fun os' q' hq' => ih fun m hm => (hrest m hm).later hq'

/-- A loop that was started. -/
def Started (tid : ℕ) (tag : PollCall) (os : List (PollNote T)) : Prop :=
  ∃ subscriber rounds, tag = .on subscriber rounds ∧ ∃ o ∈ os, o.tid = tid ∧ StartedBy subscriber o

theorem Started.mono {os' : List (PollNote T)} (h : Started tid tag os) (hos : os <+: os') : Started tid tag os' := by
  obtain ⟨subscriber, rounds, htag, o, ho, hrest⟩ := h
  exact ⟨subscriber, rounds, htag, o, hos.subset ho, hrest⟩

/-- A call that cannot fail, and of whose answer nothing is known. -/
theorem meets_ask_bind {op : PollOp T} (hop : op.fallible = false)
    (hpre : ∀ os q, (PollContract decode).pre tid tag op os q) {f : op.Answer → PollProg T Unit}
    (h : ∀ a os' q', os <+: os' → (f a).Meets (PollContract decode) Sqs.exec tid tag os' q') :
    (poll.ask op >>= f).Meets (PollContract decode) Sqs.exec tid tag os q := by
  refine Prog.Meets.await_bind fun os' q' hos _ _ => ⟨hpre os' q', fun c => ?_⟩
  have hok : (Sqs.exec c op q').1 = .ok ((q'.send c.arrivals).answer c op).1 := by simp [Sqs.exec, hop]
  rw [hok]
  exact h _ _ _ (hos.trans (List.prefix_append os' _))

/-- A round receives messages, and gives their payloads to the handler one after the other. -/
theorem meets_round_bind {f : Unit → PollProg T Unit} (hstarted : Started tid tag os)
    (h : ∀ os' q', os <+: os' → (f ()).Meets (PollContract decode) Sqs.exec tid tag os' q') :
    (EventSubscriber.round decode >>= f).Meets (PollContract decode) Sqs.exec tid tag os q := by
  have hbody : (do
      let response : Option (List Message) ← poll.ask (.receive 10)
      EventSubscriber.processAll decode (response.getD []) : PollProg T Unit).Meets
        ((PollContract decode).withPost fun _ _ _ _ _ => True) Sqs.exec tid tag os q := by
    refine Prog.Meets.await_bind fun os' q' hos _ _ => ⟨hstarted.mono hos, fun c => ?_⟩
    cases hres : (Sqs.exec c (.receive 10 : PollOp T) q').1 with
    | error e => exact fun _ _ _ _ => trivial
    | ok response =>
      refine meets_processAll _ fun m hm text htext => ?_
      have hjoin := (exec_receive hres m hm).symm.trans htext
      rw [exec_bodies]
      exact Option.join_eq_some_iff.mp hjoin
  show Prog.Meets _ _ _ _ ((Prog.attempt _ >>= _) >>= f) os q
  rw [bind_assoc]
  refine Prog.Meets.attempt_bind (fun _ => List.prefix_refl _) hbody fun r os' q' hos _ => ?_
  cases r with
  | ok a => exact h os' q' hos
  | error e =>
    refine meets_ask_bind rfl ?_ fun _ os'' q'' hos' => h os'' q'' (hos.trans hos')
    exact fun _ _ => trivial

theorem meets_poll (subscriber rounds : ℕ) (hstarted : Started tid tag os) :
    (EventSubscriber.poll decode subscriber rounds).Meets (PollContract decode) Sqs.exec tid tag os q := by
  induction rounds generalizing os q with
  | zero => exact fun _ _ _ _ => trivial
  | succ rounds ih =>
    refine meets_ask_bind rfl ?_ fun isRunning os' q' hos => ?_
    · exact fun _ _ => trivial
    · cases isRunning with
      | false => exact fun _ _ _ _ => trivial
      | true => exact meets_round_bind (hstarted.mono hos) fun os'' q'' hos' => ih (hstarted.mono (hos.trans hos'))

theorem meets_on (subscriber rounds : ℕ) :
    (EventSubscriber.on decode subscriber rounds).Meets (PollContract decode) Sqs.exec tid (.on subscriber rounds)
      os q := by
  refine Prog.Meets.await_bind fun os' q' _ _ _ => ⟨trivial, fun c => ?_⟩
  cases hflag : q'.running subscriber with
  | true =>
    have hno : (Sqs.exec c (.begin subscriber : PollOp T) q').1 = .ok false := by
      simp [Sqs.exec, PollOp.fallible, Sqs.answer, Sqs.send, hflag]
    rw [hno]
    exact fun _ _ _ _ => trivial
  | false =>
    have hyes : (Sqs.exec c (.begin subscriber : PollOp T) q').1 = .ok true := by
      simp [Sqs.exec, PollOp.fallible, Sqs.answer, Sqs.send, hflag]
    rw [hyes]
    exact meets_poll subscriber rounds ⟨subscriber, rounds, rfl, _, List.mem_append_right _
      (List.mem_singleton_self _), rfl, rfl, hflag⟩

theorem polls_meets (decode : String → Except Err (Option T)) (calls : List PollCall) :
    (polls decode calls).Meets (PollContract decode) Sqs.exec [] := by
  refine Pool.Meets.start ⟨?_, ?_, ?_⟩ fun tid call _ => ?_
  · exact fun n hn => absurd hn (Nat.not_lt_zero n)
  · exact fun o ho => absurd ho List.not_mem_nil
  · exact fun _ _ => ⟨fun o ho => absurd ho List.not_mem_nil, fun o ho => absurd ho List.not_mem_nil⟩
  · cases call with
    | on subscriber rounds => exact meets_on subscriber rounds
    | stop subscriber =>
      intro os' q' _ _ _
      refine ⟨trivial, fun c => ?_⟩
      exact fun _ _ _ _ => trivial

end Programs

/-! ### Runs -/

section Runs

variable {decode : String → Except Err (Option T)}

/-- **At least once.** Whatever fails and however the subscribers are interleaved: a message that is no
longer in the queue is of another type, or the handler has taken its payload; and the handler was never
given anything but the payload of a message. -/
theorem kept_until_handled (decode : String → Except Err (Option T)) (calls : List PollCall) (P : PollPool T)
    (os : List (PollNote T)) (hr : Run (Pool.step Sqs.exec) anyStep (polls decode calls) P os) :
    (∀ n < P.state.bodies.length, n ∈ P.state.waiting ∨
      ∃ text payload, P.state.bodies[n]? = some (some text) ∧ text ≠ "" ∧ decode text = .ok payload ∧
        ∀ p ∈ payload, ∃ o ∈ os, TakenBy n p o) ∧
    ∀ o ∈ os, ∀ n payload, o.event.call = .process n (.handler payload) →
      ∃ text, P.state.bodies[n]? = some (some text) ∧ text ≠ "" ∧ decode text = .ok (some payload) := by
  obtain ⟨⟨hinv, -⟩, -, -⟩ := Contract.run (pollContract_sound decode) (polls_meets decode calls) hr
  refine ⟨fun n hn => ?_, hinv.given⟩
  rcases Polled.queued hinv n hn with hthere | ⟨payload, ⟨text, htext, hne, hdec⟩, htaken⟩
  · exact .inl hthere
  · exact .inr ⟨text, payload, htext, hne, hdec, htaken⟩

/-- **One loop.** Whatever `on` is called, a subscriber that is not stopped receives its messages in one
thread, and so handles them one after the other. -/
theorem one_loop (decode : String → Except Err (Option T)) (calls : List PollCall) (P : PollPool T)
    (os : List (PollNote T)) (hr : Run (Pool.step Sqs.exec) anyStep (polls decode calls) P os) (subscriber : ℕ)
    (hnever : ∀ o ∈ os, o.event.call.stops subscriber = false) :
    ∀ o ∈ os, ∀ o' ∈ os, ∀ max max' rounds rounds', o.event.call = .receive max → o'.event.call = .receive max' →
      o.tag = .on subscriber rounds → o'.tag = .on subscriber rounds' → o.tid = o'.tid := by
  obtain ⟨⟨hinv, -⟩, -, -⟩ := Contract.run (pollContract_sound decode) (polls_meets decode calls) hr
  have hloop (o : PollNote T) (ho : o ∈ os) (max rounds : ℕ) (hcall : o.event.call = .receive max)
      (htag : o.tag = .on subscriber rounds) : ∃ o₁ ∈ os, o₁.tid = o.tid ∧ StartedBy subscriber o₁ := by
    obtain ⟨pre, post, hos⟩ := List.append_of_mem ho
    obtain ⟨-, hpre, -⟩ := Contract.run_at (pollContract_sound decode) (polls_meets decode calls) (hos ▸ hr)
    rw [hcall] at hpre
    obtain ⟨s, r, htag', o₁, ho₁, htid, hstarted⟩ := hpre
    obtain ⟨rfl, -⟩ := PollCall.on.inj (htag.symm.trans htag')
    refine ⟨o₁, ?_, htid, hstarted⟩
    rw [hos]
    exact List.mem_append_left _ ho₁
  have hnever' (o : PollNote T) (ho : o ∈ os) : o.event.call ≠ .stop subscriber := by
    intro hstop
    have hno := hnever o ho
    rw [hstop] at hno
    simp [PollOp.stops] at hno
  intro o ho o' ho' max max' rounds rounds' hcall hcall' htag htag'
  obtain ⟨o₁, ho₁, htid₁, hstarted₁⟩ := hloop o ho max rounds hcall htag
  obtain ⟨o₂, ho₂, htid₂, hstarted₂⟩ := hloop o' ho' max' rounds' hcall' htag'
  rw [← htid₁, ← htid₂]
  exact (Polled.loops hinv subscriber hnever').2 o₁ ho₁ o₂ ho₂ hstarted₁ hstarted₂

end Runs

/-! ### A message that is received twice -/

def decodeText (text : String) : Except Err (Option String) :=
  if text = "other" then .ok none else .ok (some text)

/-- Two subscribers; `on` is called twice for the first. -/
def twoSubscribers : PollPool String := polls decodeText [.on 0 2, .on 1 1, .on 0 2]

/-- Both receive the same message.  The handler of the first fails, that of the second takes its payload. -/
def receivedTwice : List (ℕ × PollChoice) :=
  [(0, {}), (2, {}), (1, {}), (0, {}), (1, { arrivals := [some "order-0", some "other"] }),
    (0, { batch := [0] }), (1, { batch := [0, 1] }), (0, { error := some (.error "timeout") }), (1, {}), (1, {}),
    (1, {}), (0, {}), (0, { batch := [0, 1] })]

theorem kept_until_handled_twice : ∃ P os, Run (Pool.step Sqs.exec) anyStep twoSubscribers P os ∧
    P.state.bodies.length = 2 ∧ P.state.waiting = [] ∧
    ∃ text payload, P.state.bodies[0]? = some (some text) ∧ text ≠ "" ∧ decodeText text = .ok payload ∧
      ∀ p ∈ payload, ∃ o ∈ os, TakenBy 0 p o := by
  have hr := Run.of_runSteps .nil (show runSteps (Pool.step Sqs.exec) anyStep receivedTwice twoSubscribers [] =
    some (_, _) from rfl)
  have h := (kept_until_handled decodeText _ _ _ hr).1 0 (by decide)
  exact ⟨_, _, hr, rfl, rfl, h.resolve_left (by decide)⟩

theorem one_loop_twice : ∃ P os, Run (Pool.step Sqs.exec) anyStep twoSubscribers P os ∧
    (os.filter fun o => o.tid = 0 ∧ o.tag = .on 0 2).length = 6 ∧
    ∀ o ∈ os, ∀ o' ∈ os, ∀ max max' rounds rounds', o.event.call = .receive max → o'.event.call = .receive max' →
      o.tag = .on 0 rounds → o'.tag = .on 0 rounds' → o.tid = o'.tid := by
  have hr := Run.of_runSteps .nil (show runSteps (Pool.step Sqs.exec) anyStep receivedTwice twoSubscribers [] =
    some (_, _) from rfl)
  refine ⟨_, _, hr, by decide, one_loop decodeText _ _ _ hr 0 (by decide)⟩

end Gusto.Events
