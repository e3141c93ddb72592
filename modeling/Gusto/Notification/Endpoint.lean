import Gusto.Lib.Fault
import Gusto.Lib.Run
import Gusto.Notification.Dispatch

/-!
# Endpoints and devices

The endpoint of a user is created when the first message is pushed, and kept in the row of the contact;
an upsert writes the token and the platform beside it.

* `ContactPreferenceController.upsert`: the check of the body, and the write;
* `Cached`: each endpoint that is stored was created for the token and the platform beside it;
* `SoundFrom`: what a program makes of that, call by call;
* `ToRegistered`: every message is pushed to an endpoint that was created for the token and the
  platform that are stored when it is pushed;
* `toRegistered_of_run`: so it is in every run in which no upsert changes the device beside a stored
  endpoint.
-/

set_option autoImplicit false

namespace Gusto.Notification

open Effects DispatchService

variable {N : Type}

/-! ### `ContactPreferenceService` -/

/-- `UpsertContactPreferenceRequestSchema`; `isEmail` is what `z.string().email()` takes. -/
def UpsertContactPreferenceRequestSchema (isEmail : String → Bool) (userId : String)
    (input : UpsertContactPreferenceInput) : Prop :=
  userId ≠ "" ∧ (∀ email ∈ input.email, isEmail email) ∧ (∀ phone ∈ input.phone, phone ≠ "") ∧
    (∀ pushToken ∈ input.pushToken, pushToken ≠ "") ∧
    (∀ pushPlatform ∈ input.pushPlatform, pushPlatform = "ios" ∨ pushPlatform = "android") ∧
    input.pushToken.isSome = input.pushPlatform.isSome

instance (isEmail : String → Bool) (userId : String) :
    DecidablePred (UpsertContactPreferenceRequestSchema isEmail userId) := fun input =>
  inferInstanceAs (Decidable (_ ∧ (∀ email ∈ input.email, _) ∧ (∀ phone ∈ input.phone, _) ∧
    (∀ pushToken ∈ input.pushToken, _) ∧ (∀ pushPlatform ∈ input.pushPlatform, _) ∧ _))

def ContactPreferenceService.upsert (userId : String) (input : UpsertContactPreferenceInput) :
    Dispatch N ContactPreference :=
  ask (.upsert userId input)

/-- `POST /notify/preferences`. -/
def ContactPreferenceController.upsert (isEmail : String → Bool) (userId : String)
    (input : UpsertContactPreferenceInput) : Dispatch N ContactPreference :=
  if UpsertContactPreferenceRequestSchema isEmail userId input then
    ContactPreferenceService.upsert userId input
  else throw (.http 400 "Bad Request Exception")

/-! ### What is stored -/

abbrev DispatchEvent (N : Type) : Type := Event (Notifications N) (DispatchOp N) DispatchChoice

/-- Among the calls is one that created the endpoint for the token, of the application. -/
def Created (platformArn pushToken endpointArn : String) (evs : List (DispatchEvent N)) : Prop :=
  ∃ e ∈ evs, e.call = .createEndpoint platformArn pushToken ∧ e.choice.error = none ∧
    e.choice.endpointArn = endpointArn

/-- The endpoint was created for the token and the platform of the contact. -/
def Registered (env : DispatchEnv) (evs : List (DispatchEvent N)) (contact : ContactPreference)
    (endpointArn : String) : Prop :=
  ∃ platformArn pushToken, env.platformArn contact.pushPlatform = some platformArn ∧
    contact.pushToken = some pushToken ∧ Created platformArn pushToken endpointArn evs

/-- Each endpoint that is stored was created for the token and the platform beside it. -/
def Cached (env : DispatchEnv) (evs : List (DispatchEvent N)) (s : Notifications N) : Prop :=
  ∀ userId contact endpointArn, s.contacts userId = some contact →
    contact.pushEndpointArn = some endpointArn → Registered env evs contact endpointArn

section Stored

variable {env : DispatchEnv} {evs evs' : List (DispatchEvent N)} {contact : ContactPreference}
  {endpointArn : String} {s s' : Notifications N}

theorem Registered.append (h : Registered env evs contact endpointArn) :
    Registered env (evs ++ evs') contact endpointArn := by
  obtain ⟨platformArn, pushToken, hplatform, htoken, e, he, hcall⟩ := h
  exact ⟨platformArn, pushToken, hplatform, htoken, e, List.mem_append_left _ he, hcall⟩

theorem Cached.append (h : Cached env evs s) : Cached env (evs ++ evs') s :=
  fun userId contact endpointArn hcontact harn => (h userId contact endpointArn hcontact harn).append

theorem Cached.of_contacts (h : Cached env evs s) (hs : s'.contacts = s.contacts) :
    Cached env evs s' := by
  intro userId contact endpointArn hcontact
  rw [hs] at hcontact
  exact h userId contact endpointArn hcontact

/-- Storing for a user what is cached leaves all that is stored cached. -/
theorem Cached.update (h : Cached env evs s) {userId : String}
    (hnew : ∀ endpointArn, contact.pushEndpointArn = some endpointArn →
      Registered env evs contact endpointArn)
    (hs : s'.contacts = Function.update s.contacts userId (some contact)) : Cached env evs s' := by
  intro userId' contact' endpointArn hcontact harn
  rw [hs] at hcontact
  by_cases hu : userId' = userId
  · subst hu
    rw [Function.update_self] at hcontact
    cases hcontact
    exact hnew endpointArn harn
  · rw [Function.update_of_ne hu] at hcontact
    exact h userId' contact' endpointArn hcontact harn

end Stored

/-! ### What a program makes of it -/

/-- The push of an event goes to an endpoint that was created for what is stored of the user. -/
def PushedTo (env : DispatchEnv) (userId : String) (before : List (DispatchEvent N))
    (e : DispatchEvent N) : Prop :=
  ∀ endpointArn message, e.call = .publishPush endpointArn message →
    ∃ contact, e.pre.contacts userId = some contact ∧ Registered env before contact endpointArn

/-- After the calls `before`, the calls `evs` push as they should and leave all that is stored cached. -/
structure Sound (env : DispatchEnv) (userId : String) (before evs : List (DispatchEvent N))
    (s : Notifications N) : Prop where
  pushes : ∀ pre e post, evs = pre ++ e :: post → PushedTo env userId (before ++ pre) e
  cached : Cached env (before ++ evs) s

section Sound

variable {env : DispatchEnv} {userId : String} {before evs evs' : List (DispatchEvent N)}
  {s s' : Notifications N} {α β : Type}

theorem sound_nil (h : Cached env before s) : Sound env userId before [] s :=
  ⟨fun pre e post hevs => absurd hevs (by simp), h.append⟩

theorem sound_singleton {e : DispatchEvent N} (he : PushedTo env userId before e)
    (h : Cached env (before ++ [e]) s) : Sound env userId before [e] s := by
  refine ⟨fun pre e' post hevs => ?_, h⟩
  obtain ⟨rfl, rfl, rfl⟩ : pre = [] ∧ e' = e ∧ post = [] := by
    cases pre with
    | nil =>
      cases hevs
      exact ⟨rfl, rfl, rfl⟩
    | cons x pre => simp at hevs
  rw [List.append_nil]
  exact he

theorem Sound.append (h : Sound env userId before evs s)
    (h' : Sound env userId (before ++ evs) evs' s') : Sound env userId before (evs ++ evs') s' := by
  refine ⟨fun pre e post hevs => ?_, by rw [← List.append_assoc]; exact h'.cached⟩
  rcases List.append_eq_append_iff.mp hevs with ⟨mid, rfl, hmid⟩ | ⟨mid, rfl, hmid⟩
  · rw [← List.append_assoc]
    exact h'.pushes mid e post hmid
  · cases mid with
    | nil =>
      have := h'.pushes [] e post hmid.symm
      rwa [List.append_nil, List.append_nil] at this
    | cons x mid =>
      obtain ⟨rfl, rfl⟩ := List.cons.inj hmid
      exact h.pushes pre e mid rfl

/-- From `s`, after the calls `before`, every way for the program to end is sound. -/
def SoundFrom (env : DispatchEnv) (userId : String) (before : List (DispatchEvent N))
    (p : Dispatch N α) (s : Notifications N) : Prop :=
  p.wlp exec (fun evs _ s' => Sound env userId before evs s') s

theorem soundFrom_bind {p : Dispatch N α} {f : α → Dispatch N β}
    (h : p.wlp exec (fun evs r s' => Sound env userId before evs s' ∧
      ∀ a, r = .ok a → SoundFrom env userId (before ++ evs) (f a) s') s) :
    SoundFrom env userId before (p >>= f) s := by
  refine Prog.wlp_bind.mpr (Prog.wlp_mono (fun evs r s' hp => ?_) h)
  obtain ⟨hsound, hf⟩ := hp
  cases r with
  | error e => exact hsound
  | ok a => exact Prog.wlp_mono (fun evs' r s'' h' => hsound.append h') (hf a rfl)

/-- What follows is sound wherever all that is stored is cached. -/
theorem SoundFrom.bind {p : Dispatch N α} {f : α → Dispatch N β}
    (h : SoundFrom env userId before p s)
    (hf : ∀ a evs s', Cached env evs s' → SoundFrom env userId evs (f a) s') :
    SoundFrom env userId before (p >>= f) s :=
  soundFrom_bind (Prog.wlp_mono (fun _ _ _ hsound => ⟨hsound, fun a _ => hf a _ _ hsound.cached⟩) h)

theorem SoundFrom.attempt {p : Dispatch N α} (h : SoundFrom env userId before p s) :
    SoundFrom env userId before p.attempt s :=
  Prog.wlp_attempt.mpr h

theorem soundFrom_ret {a : α} (h : Cached env before s) :
    SoundFrom env userId before (.ret a : Dispatch N α) s :=
  sound_nil h

theorem soundFrom_ask {op : DispatchOp N}
    (h : ∀ c, Sound env userId before [⟨s, op, c⟩] (exec c op s).2) :
    SoundFrom env userId before (ask op) s := by
  intro c
  have hc := h c
  generalize exec c op s = r at hc ⊢
  rcases r with ⟨_ | _, s'⟩ <;> exact hc

/-! ### Calls that leave the contacts -/

/-- The call neither pushes a message nor writes a contact. -/
def DispatchOp.plain : DispatchOp N → Bool
  | .upsert _ _ | .setPushEndpointArn _ _ | .publishPush _ _ => false
  | _ => true

theorem contacts_exec (c : DispatchChoice) {op : DispatchOp N} (s : Notifications N)
    (h : op.plain ∨ ∃ endpointArn message, op = .publishPush endpointArn message) :
    (exec c op s).2.contacts = s.contacts := by
  have hserve : (serve c op s).2.contacts = s.contacts := by
    rcases h with h | ⟨endpointArn, message, rfl⟩
    · cases op <;> first | rfl | cases h
    · rfl
  unfold exec
  cases c.error with
  | some err =>
    cases c.served with
    | true => exact hserve
    | false => rfl
  | none => exact hserve

variable (userId) in
theorem sound_plain (op : DispatchOp N) (c : DispatchChoice) (hop : op.plain)
    (h : Cached env before s) : Sound env userId before [⟨s, op, c⟩] (exec c op s).2 := by
  refine sound_singleton (fun endpointArn message hcall => ?_)
    (h.append.of_contacts (contacts_exec c s (.inl hop)))
  obtain rfl : op = _ := hcall
  cases hop

variable (userId) in
/-- A program of such calls is sound, and leaves the contacts. -/
theorem wlp_plain {p : Dispatch N α} (hp : p.Calls fun op _ => op.plain) (h : Cached env before s) :
    p.wlp exec (fun evs _ s' => Sound env userId before evs s' ∧ s'.contacts = s.contacts) s := by
  induction p generalizing before s with
  | ret a => exact ⟨sound_nil h, rfl⟩
  | throw e => exact ⟨sound_nil h, rfl⟩
  | call op k ih =>
    obtain ⟨hop, hrest⟩ := hp
    intro c
    have hsound := sound_plain userId op c hop h
    refine Prog.wlp_mono (fun evs r s' hk => ?_) (ih _ (hrest _) hsound.cached)
    exact ⟨hsound.append hk.1, hk.2.trans (contacts_exec c s (.inl hop))⟩

theorem plain_ask {op : DispatchOp N} (h : op.plain) :
    (ask op : Dispatch N op.Answer).Calls fun op _ => op.plain :=
  ⟨h, fun r => by cases r <;> trivial⟩

theorem plain_bind {p : Dispatch N α} {f : α → Dispatch N β} (hp : p.Calls fun op _ => op.plain)
    (hf : ∀ a, (f a).Calls fun op _ => op.plain) : (p >>= f).Calls fun op _ => op.plain :=
  Prog.Calls.bind hp (fun _ _ h => h) hf

theorem plain_caught {channel : Channel} {sending : Dispatch N Unit}
    (h : sending.Calls fun op _ => op.plain) :
    (caught channel sending).Calls fun op _ => op.plain := by
  refine plain_bind (Prog.Calls.attempt h fun _ _ h => h) fun r => ?_
  cases r <;> trivial

theorem plain_recordSent {type : NotificationType} {payload : Payload N} {channel : Channel} :
    (recordSent userId type payload channel).Calls fun op _ => op.plain :=
  plain_bind (plain_ask rfl) fun _ => plain_ask rfl

end Sound

/-! ### `DispatchService.send` -/

section Send

variable {env : DispatchEnv} {userId : String} {before : List (DispatchEvent N)}
  {s : Notifications N} {contact : ContactPreference} {type : NotificationType} {payload : Payload N}

/-- An endpoint that is created is stored beside the token and the platform it was created for. -/
theorem wlp_ensurePushEndpoint (hs : s.contacts userId = some contact) (h : Cached env before s) :
    (ensurePushEndpoint env userId contact).wlp exec (fun evs r s' =>
      Sound env userId before evs s' ∧ ∀ endpointArn, r = .ok endpointArn →
        ∃ contact, s'.contacts userId = some contact ∧ contact.pushEndpointArn = some endpointArn)
      s := by
  unfold ensurePushEndpoint
  cases hplatform : env.platformArn contact.pushPlatform with
  | none => exact ⟨sound_nil h, by simp⟩
  | some platformArn =>
    cases htoken : contact.pushToken.filter (· ≠ "") with
    | none => exact ⟨sound_nil h, by simp⟩
    | some pushToken =>
      refine Prog.wlp_await_bind.mpr fun c => ?_
      have hcreate := sound_plain userId (.createEndpoint platformArn pushToken) c rfl h
      unfold exec at hcreate ⊢
      cases herr : c.error with
      | some err =>
        simp only [herr] at hcreate ⊢
        exact ⟨hcreate, by simp⟩
      | none =>
        simp only [herr, serve] at hcreate ⊢
        refine Prog.wlp_await_bind.mpr fun c' => ?_
        have hnotPush : ∀ before, PushedTo env userId before
            (⟨s, .setPushEndpointArn userId c.endpointArn, c'⟩ : DispatchEvent N) := by
          intro before endpointArn message hcall
          cases hcall
        have hregistered : Registered env (before ++ [⟨s, .createEndpoint platformArn pushToken, c⟩])
            { contact with pushEndpointArn := some c.endpointArn } c.endpointArn :=
          ⟨platformArn, pushToken, hplatform, Option.eq_some_of_filter_eq_some htoken,
            ⟨s, .createEndpoint platformArn pushToken, c⟩, by simp, rfl, herr, rfl⟩
        have hstored : Cached env (before ++ [⟨s, .createEndpoint platformArn pushToken, c⟩] ++
            [⟨s, .setPushEndpointArn userId c.endpointArn, c'⟩])
            (serve c' (.setPushEndpointArn userId c.endpointArn) s).2 := by
          simp only [serve, hs]
          refine hcreate.cached.append.update (fun endpointArn harn => ?_) rfl
          cases harn
          exact hregistered.append
        cases herr' : c'.error with
        | some err =>
          refine ⟨hcreate.append (sound_singleton (hnotPush _) ?_), by simp⟩
          cases c'.served with
          | true => exact hstored
          | false => exact hcreate.cached.append
        | none =>
          simp only [serve, hs] at hstored ⊢
          refine ⟨hcreate.append (sound_singleton (hnotPush _) hstored), fun endpointArn harn => ?_⟩
          cases harn
          exact ⟨_, Function.update_self .., rfl⟩

/-- What is pushed to the endpoint that is stored goes where it should. -/
theorem soundFrom_publish {endpointArn : String} {message : Payload N}
    (hs : s.contacts userId = some contact) (harn : contact.pushEndpointArn = some endpointArn)
    (h : Cached env before s) :
    SoundFrom env userId before (do
      ask (.publishPush endpointArn message)
      recordSent userId type payload .push) s := by
  refine SoundFrom.bind (soundFrom_ask fun c => ?_) fun _ evs s' h' =>
    Prog.wlp_mono (fun _ _ _ hk => hk.1) (wlp_plain userId plain_recordSent h')
  refine sound_singleton (fun endpointArn' message' hcall => ?_)
    (h.append.of_contacts (contacts_exec c s (.inr ⟨endpointArn, message, rfl⟩)))
  cases hcall
  exact ⟨contact, hs, h userId contact endpointArn hs harn⟩

theorem soundFrom_dispatchPush (hs : s.contacts userId = some contact) (h : Cached env before s) :
    SoundFrom env userId before (dispatchPush env userId type payload contact) s := by
  unfold dispatchPush caught
  refine SoundFrom.bind (SoundFrom.attempt ?_) fun r evs s' h' => ?_
  · cases harn : contact.pushEndpointArn with
    | some endpointArn => exact soundFrom_publish hs harn h
    | none =>
      refine soundFrom_bind (Prog.wlp_mono (fun evs r s' hcreated => ?_)
        (wlp_ensurePushEndpoint hs h))
      refine ⟨hcreated.1, fun endpointArn hr => ?_⟩
      obtain ⟨contact', hs', harn'⟩ := hcreated.2 endpointArn hr
      exact soundFrom_publish hs' harn' hcreated.1.cached
  · cases r <;> exact soundFrom_ret h'

variable [Zero N] [DecidableEq N] {fmt : Json.NumberFormat N}

theorem plain_onEmail : (onEmail fmt userId type payload contact).Calls fun op _ => op.plain := by
  unfold onEmail
  split
  · refine plain_bind (plain_caught ?_) fun _ => trivial
    split
    · trivial
    · exact plain_bind (plain_ask rfl) fun _ => plain_recordSent
  · trivial

/-- **Every way for `send` to end** is sound. -/
theorem soundFrom_send (type : String) (h : Cached env before s) :
    SoundFrom env userId before (send fmt env userId payload type) s := by
  unfold send
  split
  · exact sound_nil h
  · refine soundFrom_bind fun c => ?_
    have hfind := sound_plain userId (.findUnique userId) c rfl h
    unfold exec at hfind ⊢
    cases herr : c.error with
    | some err =>
      simp only [herr] at hfind ⊢
      exact ⟨hfind, by simp⟩
    | none =>
      simp only [herr] at hfind ⊢
      refine ⟨hfind, fun found hfound => ?_⟩
      cases hfound
      cases hs : s.contacts userId with
      | none => exact soundFrom_ret hfind.cached
      | some contact =>
        -- the mail goes out first, and leaves the contact
        refine SoundFrom.bind (soundFrom_bind (Prog.wlp_mono (fun evs r s' hmailed => ?_)
          (wlp_plain userId plain_onEmail hfind.cached)))
          fun _ _ _ h' => soundFrom_ret h'
        refine ⟨hmailed.1, fun emailed _ => ?_⟩
        refine SoundFrom.bind ?_ fun _ _ _ h' => soundFrom_ret h'
        unfold onPush
        split
        · exact SoundFrom.bind (soundFrom_dispatchPush (hmailed.2.symm ▸ hs) hmailed.1.cached)
            fun _ _ _ h' => soundFrom_ret h'
        · exact soundFrom_ret hmailed.1.cached

end Send

/-! ### Whole calls -/

/-- A call of notification-service: a contact is registered, or a user is sent a notification. -/
inductive NotifyCall (N : Type)
  | upsert (userId : String) (input : UpsertContactPreferenceInput)
  | send (userId type : String) (payload : Payload N)

def NotifyCall.userId : NotifyCall N → String
  | .upsert userId _ | .send userId _ _ => userId

section Run

variable [Zero N] [DecidableEq N] (isEmail : String → Bool) (fmt : Json.NumberFormat N)
  (env : DispatchEnv)

/-- The code that a call runs; what it answers is read by its caller. -/
def NotifyCall.prog : NotifyCall N → Dispatch N Unit
  | .upsert userId input => do
    let _ ← ContactPreferenceController.upsert isEmail userId input
  | .send userId type payload => do
    let _ ← DispatchService.send fmt env userId payload type

/-- A call, and what came of it. -/
abbrev NotifyNote (N : Type) : Type :=
  NotifyCall N × Done (Notifications N) (DispatchOp N) DispatchChoice Err Unit

/-- One whole call. -/
abbrev notifyStep : Notifications N → NotifyCall N × List DispatchChoice →
    Option (Notifications N × NotifyNote N) :=
  callStep exec (NotifyCall.prog isEmail fmt env)

end Run

/-- The calls to the outside made in a run. -/
def eventsOf (os : List (NotifyNote N)) : List (DispatchEvent N) := os.flatMap (·.2.events)

theorem eventsOf_snoc (os : List (NotifyNote N)) (o : NotifyNote N) :
    eventsOf (os ++ [o]) = eventsOf os ++ o.2.events := by
  simp [eventsOf]

/-- Every message is pushed to an endpoint that had been created for the token and the platform that
are stored when it is pushed. -/
def ToRegistered (env : DispatchEnv) (os : List (NotifyNote N)) : Prop :=
  ∀ before o after, os = before ++ o :: after → ∀ pre e post, o.2.events = pre ++ e :: post →
    PushedTo env o.1.userId (eventsOf before ++ pre) e

/-- Where an endpoint is stored, an upsert leaves the token and the platform. -/
def KeepsDevice (s : Notifications N) : NotifyCall N → Prop
  | .upsert userId input => ∀ contact ∈ s.contacts userId, contact.pushEndpointArn ≠ none →
      (input.write contact).pushToken = contact.pushToken ∧
        (input.write contact).pushPlatform = contact.pushPlatform
  | .send _ _ _ => True

instance (s : Notifications N) : DecidablePred (KeepsDevice s) := fun call =>
  match call with
  | .upsert userId _ => inferInstanceAs (Decidable (∀ contact ∈ s.contacts userId, _))
  | .send _ _ _ => inferInstanceAs (Decidable True)

section Run

variable {isEmail : String → Bool} {env : DispatchEnv} {before : List (DispatchEvent N)}
  {s s' : Notifications N}

/-- What an upsert that leaves the device writes is cached. -/
theorem soundFrom_upsert {userId : String} {input : UpsertContactPreferenceInput}
    (hkeeps : KeepsDevice s (.upsert userId input)) (h : Cached env before s) :
    SoundFrom env userId before (ContactPreferenceController.upsert isEmail userId input) s := by
  unfold ContactPreferenceController.upsert
  split
  · refine soundFrom_ask fun c => ?_
    refine sound_singleton (fun endpointArn message hcall => by cases hcall) ?_
    have hwritten : Cached env before (serve c (.upsert userId input) s).2 := by
      refine h.update (fun endpointArn harn => ?_) rfl
      cases hs : s.contacts userId with
      | none =>
        rw [hs] at harn
        cases harn
      | some contact =>
        rw [hs] at harn
        change contact.pushEndpointArn = some endpointArn at harn
        obtain ⟨htoken, hplatform⟩ := hkeeps contact hs (by simp [harn])
        obtain ⟨platformArn, pushToken, hp, ht, hcreated⟩ := h userId contact endpointArn hs harn
        exact ⟨platformArn, pushToken, hplatform ▸ hp, htoken ▸ ht, hcreated⟩
    unfold exec
    cases c.error with
    | some err =>
      cases c.served with
      | true => exact hwritten.append
      | false => exact h.append
    | none => exact hwritten.append
  · exact sound_nil h

variable [Zero N] [DecidableEq N] {fmt : Json.NumberFormat N}

/-- **One call.** -/
theorem sound_call {call : NotifyCall N} {cs : List DispatchChoice} {o : NotifyNote N}
    (hkeeps : KeepsDevice s call) (h : Cached env before s)
    (hstep : notifyStep isEmail fmt env s (call, cs) = some (s', o)) :
    Sound env o.1.userId before o.2.events s' := by
  obtain ⟨hrun, hcall, rfl⟩ := callStep_eq_some.mp hstep
  rw [hcall]
  have hsound : SoundFrom env call.userId before (call.prog isEmail fmt env) s := by
    cases call with
    | upsert userId input =>
      exact SoundFrom.bind (soundFrom_upsert hkeeps h) fun _ _ _ h' => soundFrom_ret h'
    | send userId type payload =>
      exact SoundFrom.bind (soundFrom_send type h) fun _ _ _ h' => soundFrom_ret h'
  exact Prog.wlp_iff_run.mp hsound cs o.2 hrun

/-- **Messages go to the device that is registered.** In every run, from contacts without endpoints,
in which no upsert changes the token or the platform beside a stored endpoint, every message is pushed
to an endpoint that was created for the token and the platform stored at that time. -/
theorem toRegistered_of_run {s₀ : Notifications N} {os : List (NotifyNote N)}
    (h₀ : ∀ userId contact, s₀.contacts userId = some contact → contact.pushEndpointArn = none)
    (hrun : Run (notifyStep isEmail fmt env) (fun _ s l => KeepsDevice s l.1) s₀ s os) :
    ToRegistered env os := by
  suffices h : Cached env (eventsOf os) s ∧ ToRegistered env os from h.2
  refine hrun.invariant (fun os s => Cached env (eventsOf os) s ∧ ToRegistered env os) ?_ ?_
  · refine ⟨fun userId contact endpointArn hs harn => ?_, fun before o after hos => ?_⟩
    · rw [h₀ userId contact hs] at harn
      cases harn
    · simp at hos
  · intro os s l s' o ⟨hcached, hpushed⟩ hkeeps hstep
    have hsound := sound_call hkeeps hcached hstep
    refine ⟨by rw [eventsOf_snoc]; exact hsound.cached, fun before o' after hos => ?_⟩
    rcases snoc_eq_append_cons hos with ⟨rfl, rfl, -⟩ | ⟨after', hos', -⟩
    · exact hsound.pushes
    · exact hpushed before o' after' hos'

end Run

/-! ### A new phone -/

/-- The token that an endpoint is asked for. -/
def tokenOf (e : DispatchEvent N) : Option String :=
  match e.call with
  | .createEndpoint _ pushToken => some pushToken
  | _ => none

/-- SNS does not answer two tokens with one endpoint. -/
def DistinctEndpoints (evs : List (DispatchEvent N)) : Prop :=
  ∀ e ∈ evs, ∀ e' ∈ evs, ∀ pushToken ∈ tokenOf e, ∀ pushToken' ∈ tokenOf e',
    e.choice.endpointArn = e'.choice.endpointArn → pushToken = pushToken'

/-- The token that is stored of the user when a message is pushed. -/
def tokenAtPush (userId : String) (e : DispatchEvent N) : Option String :=
  match e.call with
  | .publishPush _ _ => (e.pre.contacts userId).bind (·.pushToken)
  | _ => none

instance (evs : List (DispatchEvent N)) : Decidable (DistinctEndpoints evs) :=
  inferInstanceAs (Decidable (∀ e ∈ evs, ∀ e' ∈ evs, ∀ pushToken ∈ tokenOf e,
    ∀ pushToken' ∈ tokenOf e', _))

/-- A message is pushed for a token that no endpoint is ever asked for. -/
def Misses (pushToken : String) (os : List (NotifyNote N)) : Prop :=
  (∃ o ∈ os, ∃ e ∈ o.2.events, tokenAtPush o.1.userId e = some pushToken) ∧
    ∀ e ∈ eventsOf os, tokenOf e ≠ some pushToken

instance (pushToken : String) : DecidablePred (Misses (N := N) pushToken) := fun _ =>
  inferInstanceAs (Decidable (_ ∧ _))

theorem ToRegistered.not_misses {env : DispatchEnv} {os : List (NotifyNote N)}
    (h : ToRegistered env os) (pushToken : String) : ¬ Misses pushToken os := by
  rintro ⟨⟨o, ho, e, he, htoken⟩, hnone⟩
  obtain ⟨before, after, rfl⟩ := List.append_of_mem ho
  obtain ⟨pre, post, hevs⟩ := List.append_of_mem he
  unfold tokenAtPush at htoken
  split at htoken
  · rename_i endpointArn message hcall
    obtain ⟨contact, hs, platformArn, token, -, ht, e', he', hcreate, -⟩ :=
      h before o after rfl pre e post hevs endpointArn message hcall
    rw [hs, Option.bind_some, ht] at htoken
    cases htoken
    refine hnone e' ?_ (by rw [tokenOf, hcreate])
    unfold eventsOf at he' ⊢
    rw [List.flatMap_append, List.flatMap_cons, hevs]
    simp only [List.mem_append] at he' ⊢
    rcases he' with he' | he'
    · exact .inl he'
    · exact .inr (.inl (.inl he'))
  · cases htoken

/-- Both platforms are configured. -/
def bothPlatforms : DispatchEnv where
  SNS_IOS_PLATFORM_APPLICATION_ARN := some "app-ios"
  SNS_ANDROID_PLATFORM_APPLICATION_ARN := some "app-android"

def noContacts : Notifications ℤ where
  contacts := fun _ => none

/-- A phone is registered. -/
def registers (pushToken : String) : NotifyCall ℤ × List DispatchChoice :=
  (.upsert "user-1" { pushToken := some pushToken, pushPlatform := some "ios" }, [{}])

/-- A phone is registered and gets a first message; then the mail is opted out of, and there is a
second message. -/
def samePhone : List (NotifyCall ℤ × List DispatchChoice) :=
  [registers "token-1",
    (.send "user-1" "ORDER_STATUS" [], [{}, { endpointArn := "endpoint-1" }, {}, {}, {}, {}]),
    (.upsert "user-1" { emailOptOut := some true }, [{}]),
    (.send "user-1" "ORDER_STATUS" [], [{}, {}, {}, {}])]

theorem toRegistered_of_run_samePhone :
    ∃ s os, runSteps (notifyStep (fun _ => true) Json.integers bothPlatforms)
        (fun _ s l => KeepsDevice s l.1) samePhone noContacts [] = some (s, os) ∧
      os.length = 4 ∧ ToRegistered bothPlatforms os := by
  have hrun : (runSteps (notifyStep (fun _ => true) Json.integers bothPlatforms)
      (fun _ s l => KeepsDevice s l.1) samePhone noContacts []).any (·.2.length = 4) := by
    decide +kernel
  obtain ⟨⟨s, os⟩, hsteps, hos⟩ := (Option.any_eq_true _ _).mp hrun
  exact ⟨s, os, hsteps, of_decide_eq_true hos,
    toRegistered_of_run (fun _ _ h => absurd h (by simp [noContacts])) (Run.of_runSteps .nil hsteps)⟩

/-- The second message goes to the phone that was registered before. -/
def newPhone : List (NotifyCall ℤ × List DispatchChoice) :=
  [registers "token-1",
    (.send "user-1" "ORDER_STATUS" [], [{}, { endpointArn := "endpoint-1" }, {}, {}, {}, {}]),
    registers "token-2",
    (.send "user-1" "ORDER_STATUS" [], [{}, {}, {}, {}])]

theorem not_toRegistered :
    ¬ ∀ (isEmail : String → Bool) (fmt : Json.NumberFormat ℤ) (env : DispatchEnv)
      (s₀ s : Notifications ℤ) (os : List (NotifyNote ℤ)), (∀ userId, s₀.contacts userId = none) →
      Run (notifyStep isEmail fmt env) anyStep s₀ s os → DistinctEndpoints (eventsOf os) →
      ToRegistered env os := by
  intro h
  have hrun : (runSteps (notifyStep (fun _ => true) Json.integers bothPlatforms) anyStep newPhone
      noContacts []).any (fun r => DistinctEndpoints (eventsOf r.2) ∧ Misses "token-2" r.2) := by
    decide +kernel
  obtain ⟨⟨s, os⟩, hsteps, hos⟩ := (Option.any_eq_true _ _).mp hrun
  obtain ⟨hdistinct, hmisses⟩ := of_decide_eq_true hos
  have hregistered := h _ _ _ noContacts s os (fun _ => rfl) (Run.of_runSteps .nil hsteps) hdistinct
  exact hregistered.not_misses "token-2" hmisses

end Gusto.Notification
