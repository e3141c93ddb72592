import Gusto.Events.Subscriber
import Mathlib.Data.List.Nodup

/-!
# From the publisher to a subscriber

EventBridge hands an entry to an SQS target in its own envelope, whose fields are `detail-type` and
`detail`; the subscriber looks for `DetailType` and `Detail`, the names that the entry had.

* `Standard`: the envelope, as a hypothesis on what is delivered;
* `decode_envelope`: of an envelope, every subscriber takes the whole for the payload;
* `not_roundTrip`: so no event of any type reaches the handler of any subscriber as it was published.
-/

set_option autoImplicit false

namespace Gusto.Events

open Effects

variable {N : Type} {fmt : Json.NumberFormat N}

/-! ### The envelope -/

/-- The fields of an event at a target. -/
def envelopeKeys : List String :=
  ["version", "id", "detail-type", "source", "account", "time", "region", "resources", "detail"]

/-- What EventBridge delivers of an entry: an envelope with its type and its parsed detail. -/
def Standard (fmt : Json.NumberFormat N) (deliver : Entry → String) : Prop :=
  ∀ (entry : Entry) (detail : List (String × Json N)), (Json.obj detail).Wf →
    Json.parse fmt entry.Detail = some (.obj detail) →
    ∃ fields, Json.parse fmt (deliver entry) = some (.obj fields) ∧
      fields.lookup "detail-type" = some (.str entry.DetailType) ∧
      fields.lookup "detail" = some (.obj detail) ∧ ∀ f ∈ fields, f.1 ∈ envelopeKeys

/-- The calls of the subscriber, answered or failing. -/
def exec {T : Type} : Handler (SubscriberOp T) (fun _ => Unit) Err Unit (Option Err)
  | none, _, s => (.ok (), s)
  | some e, _, s => (.error e, s)

/-! ### Texts -/

theorem text_ne_empty {text : String} {v : Json N} (h : Json.parse fmt text = some v) :
    text ≠ "" := by
  rintro rfl
  cases h

/-- What holds a payload as its detail is not the payload. -/
theorem envelope_ne {fields p : List (String × Json N)}
    (h : fields.lookup "detail" = some (.obj p)) : Json.obj fields ≠ .obj p := by
  intro heq
  have hlt := Json.sizeOf_lt_of_lookup h
  rw [heq] at hlt
  exact lt_irrefl _ hlt

section Decode

variable [Zero N] [DecidableEq N]

/-- The message of an event of type `t` and payload `p` reaches the handler of the subscriber of `s`
when `t = s`, with the payload `p`; for another type it does not. -/
def RoundTrip (fmt : Json.NumberFormat N) (deliver : Entry → String) (source t : String)
    (p : Json N) (s : String) : Prop :=
  ∀ cs d, (processMessage (decode fmt s)
      (some (deliver (EventPublisher.publish fmt source t p)))).run exec cs () = some d →
    payloads d.events = if t = s then [p] else []

/-! ### What is decoded -/

/-- **The decoder of the envelope.** It has none of the fields that are looked for, so it is taken
for the payload, and its type for the one that was asked for. -/
theorem decode_envelope {fields : List (String × Json N)} {text : String}
    (hparse : Json.parse fmt text = some (.obj fields)) (hkeys : ∀ f ∈ fields, f.1 ∈ envelopeKeys)
    (s : String) : decode fmt s text = .ok (some (.obj fields)) := by
  have hno : ∀ key, key ∉ envelopeKeys → (Json.obj fields).get key = none := by
    intro key hkey
    refine Json.get_eq_none fun hmem => ?_
    obtain ⟨f, hf, rfl⟩ := List.mem_map.mp hmem
    exact hkey (hkeys f hf)
  have hp : parseJson fmt text = .ok (.obj fields) := by unfold parseJson; rw [hparse]
  unfold decode
  rw [hp]
  simp [bind, Except.bind, pure, Except.pure, hno "DetailType" (by decide),
    hno "Detail" (by decide), hno "eventType" (by decide), hno "payload" (by decide), orElse]

/-! ### What reaches the handler -/

/-- However the calls end, the payload of a message reaches the handler once. -/
theorem payloads_of_run {T : Type} {decode : String → Except Err (Option T)} {body : Option String}
    {payload : T} (h : payloadOf decode body = some payload) {cs : List (Option Err)}
    {d : Done Unit (SubscriberOp T) (Option Err) Err Unit}
    (hrun : (processMessage decode body).run exec cs () = some d) : payloads d.events = [payload] := by
  have hwlp : (processMessage decode body).wlp exec (fun evs _ _ => payloads evs = [payload]) () := by
    rw [processMessage_of_payload h]
    rintro (_ | e)
    · exact fun c => rfl
    · rfl
  exact Prog.wlp_iff_run.mp hwlp cs d hrun

/-- Every subscriber takes what is delivered of an event for a payload, whatever the type. -/
theorem payloadOf_delivered {deliver : Entry → String} (hstd : Standard fmt deliver)
    (source t : String) {p : List (String × Json N)} (hp : (Json.obj p).Wf) (s : String) :
    ∃ fields, fields.lookup "detail" = some (.obj p) ∧
      payloadOf (decode fmt s) (some (deliver (EventPublisher.publish fmt source t (.obj p)))) =
        some (.obj fields) := by
  obtain ⟨fields, hparse, -, hdetail, hkeys⟩ :=
    hstd (EventPublisher.publish fmt source t (.obj p)) p hp (Json.parse_stringify hp)
  exact ⟨fields, hdetail, payloadOf_eq (text_ne_empty hparse) (decode_envelope hparse hkeys s)⟩

theorem not_roundTrip_of_envelope {deliver : Entry → String} (hstd : Standard fmt deliver)
    {source t : String} {p : List (String × Json N)} (hp : (Json.obj p).Wf) (s : String) :
    ¬ RoundTrip fmt deliver source t (.obj p) s := by
  intro hround
  obtain ⟨fields, hdetail, hpayload⟩ := payloadOf_delivered hstd source t hp s
  have hrun : ∃ d, (processMessage (decode fmt s)
      (some (deliver (EventPublisher.publish fmt source t (.obj p))))).run exec [none, none] () =
        some d := by
    rw [processMessage_of_payload hpayload]
    exact ⟨_, rfl⟩
  obtain ⟨d, hd⟩ := hrun
  have heq := (payloads_of_run hpayload hd).symm.trans (hround _ d hd)
  split at heq
  · exact envelope_ne hdetail (List.cons.inj heq).1
  · cases heq

/-- **No event makes the way.** Of every type, every payload and every subscriber: the handler is
called for a type that is not its own, and never with the payload. -/
theorem not_roundTrip {deliver : Entry → String} (hstd : Standard fmt deliver) (source t : String)
    (p : List (String × Json N)) (hp : (Json.obj p).Wf) (s : String) :
    ¬ RoundTrip fmt deliver source t (.obj p) s :=
  not_roundTrip_of_envelope hstd hp s

end Decode

/-! ### One envelope -/

/-- The fields that EventBridge puts around a detail. -/
def Entry.envelope (entry : Entry) (detail : Json N) : List (String × Json N) :=
  [("version", .str "0"), ("id", .str "6a7e8feb-b491-4cf7-a9f1-bf3703467718"),
    ("detail-type", .str entry.DetailType), ("source", .str entry.Source),
    ("account", .str "000000000000"), ("time", .str "2026-01-01T00:00:00Z"),
    ("region", .str "ap-south-1"), ("resources", .arr []), ("detail", detail)]

/-- A rule that hands events to a queue. -/
def eventBridge (fmt : Json.NumberFormat N) (entry : Entry) : String :=
  match Json.parse fmt entry.Detail with
  | some detail => Json.stringify fmt (.obj (entry.envelope detail))
  | none => ""

theorem keys_envelope (entry : Entry) (detail : Json N) :
    (entry.envelope detail).map Prod.fst = envelopeKeys := rfl

theorem wf_envelope (entry : Entry) {detail : Json N} (h : detail.Wf) :
    (Json.obj (entry.envelope detail)).Wf := by
  refine .obj (by rw [keys_envelope]; decide) fun f hf => ?_
  simp only [Entry.envelope, List.mem_cons, List.not_mem_nil, or_false] at hf
  rcases hf with rfl | rfl | rfl | rfl | rfl | rfl | rfl | rfl | rfl
  case inr.inr.inr.inr.inr.inr.inr.inl => exact .arr (by simp)
  case inr.inr.inr.inr.inr.inr.inr.inr => exact h
  all_goals exact .str _

theorem standard_eventBridge (fmt : Json.NumberFormat N) : Standard fmt (eventBridge fmt) := by
  intro entry detail hwf hparse
  refine ⟨entry.envelope (.obj detail), ?_, ?_, ?_, fun f hf => ?_⟩
  · rw [eventBridge, hparse]
    exact Json.parse_stringify (wf_envelope entry hwf)
  · simp [Entry.envelope, List.lookup_cons]
  · simp [Entry.envelope, List.lookup_cons]
  · rw [← keys_envelope entry (.obj detail)]
    exact List.mem_map_of_mem hf

/-- The payload of an order that was placed. -/
def placedPayload : List (String × Json ℤ) :=
  [("orderId", .str "order-1"), ("userId", .str "user-1"), ("finalTotal", .num 25000)]

theorem wf_placedPayload : (Json.obj placedPayload).Wf := by
  refine .obj (by decide) fun f hf => ?_
  simp only [placedPayload, List.mem_cons, List.not_mem_nil, or_false] at hf
  rcases hf with rfl | rfl | rfl
  · exact .str _
  · exact .str _
  · exact .num _

/-- The consumer of OrderPlaced never sees the order that was placed. -/
theorem not_roundTrip_orderPlaced : Standard Json.integers (eventBridge Json.integers) ∧
    ¬ RoundTrip Json.integers (eventBridge Json.integers) "order-execution-service" "OrderPlaced"
      (.obj placedPayload) "OrderPlaced" :=
  ⟨standard_eventBridge _, not_roundTrip_of_envelope (standard_eventBridge _) wf_placedPayload _⟩

/-- The consumer of another event is called for it. -/
theorem not_roundTrip_otherType :
    ¬ RoundTrip Json.integers (eventBridge Json.integers) "order-execution-service" "OrderPlaced"
      (.obj placedPayload) "BudgetUpdated" :=
  not_roundTrip (standard_eventBridge _) _ _ _ wf_placedPayload _

end Gusto.Events
