import Gusto.Notification.Dispatch
import Gusto.Workflow.Swaps

/-!
# One proposal, two notifications

orchestrator-service publishes MenuProposed for each proposal, which notification-service turns into
a menu of the day, and asks for the same menu of the day by a request of its own.

* `dispatchAll`: what notification-service sends for the events and requests of a day, in any order;
* `OnePerProposal`: each proposal has led to one menu of the day on each channel that is active;
* `onePerProposal_iff`: this holds of no day of a user who has an active channel.
-/

set_option autoImplicit false

namespace Gusto.Notification

open Effects Events Workflow

variable {N : Type}

/-! ### Messages -/

/-- The message is a menu of the day. -/
def Message.isMenu : Message N → Bool
  | .email _ subject _ => subject = subjectFor .MENU_OF_THE_DAY
  | .push _ message =>
    match message.lookup "type" with
    | some (.str type) => type = toString NotificationType.MENU_OF_THE_DAY
    | _ => false

def Message.channel : Message N → Channel
  | .email _ _ _ => .email
  | .push _ _ => .push

/-- The menus of the day on a channel. -/
def menusOn (channel : Channel) (messages : List (Message N)) : ℕ :=
  messages.countP fun m => m.isMenu && m.channel = channel

/-- A channel that is set and not opted out. -/
def ContactPreference.active (contact : ContactPreference) : Channel → Bool
  | .email => contact.mailsTo.isSome
  | .push => contact.pushes

/-- How many messages on a channel one request comes to: none are pushed where there is no endpoint
and no platform to create one with. -/
def ContactPreference.reach (env : DispatchEnv) (contact : ContactPreference) : Channel → ℕ
  | .email => if contact.mailsTo.isSome then 1 else 0
  | .push =>
    if contact.pushes ∧
        (contact.pushEndpointArn.isSome ∨ (env.platformArn contact.pushPlatform).isSome) then 1 else 0

section Channels

variable {env : DispatchEnv} {userId endpointArn : String} {payload : Payload N}
  {contact : ContactPreference} {s s' : Notifications N} {c : DispatchChoice}

/-! ### What is sent for one request -/

/-- The user can be reached as `reach` says. -/
def Reached (env : DispatchEnv) (userId : String) (reach : Channel → ℕ) (s : Notifications N) : Prop :=
  ∃ contact, s.contacts userId = some contact ∧ contact.reach env = reach

/-- From `s` to `s'` the messages have been sent that `reach` says. -/
structure Sends (env : DispatchEnv) (userId : String) (reach : Channel → ℕ)
    (s s' : Notifications N) : Prop where
  reached : Reached env userId reach s'
  sent : ∃ messages, s'.sent = s.sent ++ messages ∧ ∀ channel, menusOn channel messages = reach channel

/-- An endpoint that has been created does not change who is reached. -/
theorem reach_withEndpoint {platformArn : String}
    (h : env.platformArn contact.pushPlatform = some platformArn) :
    ({ contact with pushEndpointArn := some endpointArn } : ContactPreference).reach env =
      contact.reach env := by
  funext channel
  cases channel with
  | email => rfl
  | push => simp [ContactPreference.reach, ContactPreference.pushes, h]

/-- What has been pushed. -/
def pushed (s : Notifications N) (userId endpointArn : String) (payload : Payload N) :
    Notifications N :=
  { s with
    sent := s.sent ++
      [.push endpointArn (("type", .str (toString NotificationType.MENU_OF_THE_DAY)) :: payload)]
    log := s.log ++ [{ userId, type := .MENU_OF_THE_DAY, payload, channel := .push }] }

theorem eval_dispatchPush (hc : c.error = none) (hendpoint : contact.pushEndpointArn = some endpointArn) :
    (DispatchService.dispatchPush env userId .MENU_OF_THE_DAY payload contact).eval exec c s =
      (.ok { channel := .push, success := true }, pushed s userId endpointArn payload) := by
  obtain ⟨error, served, arn⟩ := c
  subst hc
  unfold DispatchService.dispatchPush
  rw [hendpoint]
  rfl

/-- The endpoint of a user has been stored. -/
def withEndpoint (s : Notifications N) (userId endpointArn : String) (contact : ContactPreference) :
    Notifications N :=
  let contact := { contact with pushEndpointArn := some endpointArn }
  { s with contacts := Function.update s.contacts userId (some contact) }

/-- Where there is no endpoint one is created, and stored. -/
theorem eval_dispatchPush_created {platformArn pushToken : String} (hc : c.error = none)
    (hcontact : s.contacts userId = some contact) (hendpoint : contact.pushEndpointArn = none)
    (hplatform : env.platformArn contact.pushPlatform = some platformArn)
    (htoken : contact.pushToken.filter (· ≠ "") = some pushToken) :
    (DispatchService.dispatchPush env userId .MENU_OF_THE_DAY payload contact).eval exec c s =
      (.ok { channel := .push, success := true },
        pushed (withEndpoint s userId c.endpointArn contact) userId c.endpointArn payload) := by
  obtain ⟨error, served, arn⟩ := c
  subst hc
  unfold DispatchService.dispatchPush DispatchService.ensurePushEndpoint
  rw [hendpoint]
  simp only [hplatform, htoken]
  simp [DispatchService.caught, ask, Prog.await, exec, serve, hcontact, DispatchService.recordSent,
    withEndpoint, pushed]

/-- Where none can be created nothing is pushed. -/
theorem eval_dispatchPush_unconfigured (hendpoint : contact.pushEndpointArn = none)
    (hplatform : env.platformArn contact.pushPlatform = none) :
    ∃ r, (DispatchService.dispatchPush env userId .MENU_OF_THE_DAY payload contact).eval exec c s =
      (.ok r, s) := by
  unfold DispatchService.dispatchPush DispatchService.ensurePushEndpoint
  rw [hendpoint]
  simp only [hplatform]
  exact ⟨_, rfl⟩

/-- From `s` to `s'` a user has been sent `n` menus of the day on one channel, and none on the other. -/
def SendsOn (channel : Channel) (n : ℕ) (s s' : Notifications N) : Prop :=
  ∃ messages, s'.sent = s.sent ++ messages ∧
    ∀ ch, menusOn ch messages = if ch = channel then n else 0

theorem sendsOn_refl {channel : Channel} : SendsOn channel 0 s s :=
  ⟨[], (List.append_nil _).symm, fun _ => (ite_self _).symm⟩

theorem sendsOn_pushed : SendsOn .push 1 s (pushed s userId endpointArn payload) := by
  refine ⟨_, rfl, fun channel => ?_⟩
  cases channel <;> simp [menusOn, Message.isMenu, Message.channel]

/-- What has been mailed. -/
def mailed (s : Notifications N) (userId email body : String) (payload : Payload N) : Notifications N :=
  { s with
    sent := s.sent ++ [.email email (subjectFor .MENU_OF_THE_DAY) body]
    log := s.log ++ [{ userId, type := .MENU_OF_THE_DAY, payload, channel := .email }] }

theorem sendsOn_mailed {email body : String} : SendsOn .email 1 s (mailed s userId email body payload) := by
  refine ⟨_, rfl, fun channel => ?_⟩
  cases channel <;> simp [menusOn, Message.isMenu, Message.channel]

/-- What is pushed to a user who has a token. -/
theorem exists_dispatchPush (hc : c.error = none) (hcontact : s.contacts userId = some contact)
    (hpushes : contact.pushes) :
    ∃ r s', (DispatchService.dispatchPush env userId .MENU_OF_THE_DAY payload contact).eval exec c s =
        (.ok r, s') ∧ Reached env userId (contact.reach env) s' ∧
      SendsOn .push (contact.reach env .push) s s' := by
  cases hendpoint : contact.pushEndpointArn with
  | some endpointArn =>
    have hreach : contact.reach env .push = 1 := if_pos ⟨hpushes, .inl (by rw [hendpoint]; rfl)⟩
    rw [hreach]
    exact ⟨_, _, eval_dispatchPush hc hendpoint, ⟨contact, hcontact, rfl⟩, sendsOn_pushed⟩
  | none =>
    cases hplatform : env.platformArn contact.pushPlatform with
    | some platformArn =>
      obtain ⟨pushToken, htoken⟩ : ∃ pushToken, contact.pushToken.filter (· ≠ "") = some pushToken :=
        Option.isSome_iff_exists.mp (Bool.and_eq_true_iff.mp hpushes).1
      have hreach : contact.reach env .push = 1 := if_pos ⟨hpushes, .inr (by rw [hplatform]; rfl)⟩
      rw [hreach]
      exact ⟨_, _, eval_dispatchPush_created hc hcontact hendpoint hplatform htoken,
        ⟨_, Function.update_self .., reach_withEndpoint hplatform⟩, sendsOn_pushed⟩
    | none =>
      obtain ⟨r, hr⟩ := eval_dispatchPush_unconfigured (N := N) (s := s) (c := c) hendpoint hplatform
      have hreach : contact.reach env .push = 0 := if_neg (by simp [hendpoint, hplatform])
      rw [hreach]
      exact ⟨r, s, hr, ⟨contact, hcontact, rfl⟩, sendsOn_refl⟩

variable (env payload) in
theorem exists_onPush (hc : c.error = none) (hcontact : s.contacts userId = some contact) :
    ∃ r s', (DispatchService.onPush env userId .MENU_OF_THE_DAY payload contact).eval exec c s =
        (.ok r, s') ∧ Reached env userId (contact.reach env) s' ∧
      SendsOn .push (contact.reach env .push) s s' := by
  unfold DispatchService.onPush
  by_cases hpushes : contact.pushes
  · rw [if_pos hpushes]
    obtain ⟨r, s', heval, hsends⟩ := exists_dispatchPush hc hcontact hpushes
    exact ⟨[r], s', by rw [Prog.eval_bind, heval]; rfl, hsends⟩
  · rw [if_neg hpushes]
    have hreach : contact.reach env .push = 0 := if_neg fun h => hpushes h.1
    rw [hreach]
    exact ⟨[], s, rfl, ⟨contact, hcontact, rfl⟩, sendsOn_refl⟩

end Channels

section Send

variable [Zero N] [DecidableEq N] {fmt : Json.NumberFormat N} {num : ℚ → N} {env : DispatchEnv}
  {userId : String} {payload : Payload N} {contact : ContactPreference} {s : Notifications N}
  {c : DispatchChoice}

theorem exists_mapM {α β : Type} {f : α → Except Err β} {l : List α} (h : ∀ a ∈ l, ∃ b, f a = .ok b) :
    ∃ bs, l.mapM f = .ok bs := by
  induction l with
  | nil => exact ⟨[], rfl⟩
  | cons a l ih =>
    obtain ⟨b, hb⟩ := h a (by simp)
    obtain ⟨bs, hbs⟩ := ih fun a' ha' => h a' (List.mem_cons_of_mem _ ha')
    exact ⟨b :: bs, by rw [List.mapM_cons, hb, hbs]; rfl⟩

variable (fmt) in
/-- There is a text for a menu of the day whose dishes are not `null`. -/
theorem exists_bodyFor (h : ∀ item ∈ proposedItems payload, item ≠ .null) :
    ∃ body, bodyFor fmt .MENU_OF_THE_DAY payload = .ok body := by
  obtain ⟨names, hnames⟩ : ∃ names, (proposedItems payload).mapM nameOf = .ok names := by
    refine exists_mapM fun item hitem => ?_
    cases item with
    | null => exact absurd rfl (h _ hitem)
    | _ => exact ⟨_, rfl⟩
  exact ⟨menuText fmt names, by rw [bodyFor, hnames]; rfl⟩

theorem eval_dispatchEmail (hc : c.error = none) {email body : String}
    (hbody : bodyFor fmt .MENU_OF_THE_DAY payload = .ok body) :
    (DispatchService.dispatchEmail fmt userId .MENU_OF_THE_DAY payload email).eval exec c s =
      (.ok { channel := .email, success := true }, mailed s userId email body payload) := by
  obtain ⟨error, served, arn⟩ := c
  subst hc
  unfold DispatchService.dispatchEmail
  rw [hbody]
  rfl

variable (fmt env) in
theorem exists_onEmail (hc : c.error = none) (hcontact : s.contacts userId = some contact)
    (hpayload : ∀ item ∈ proposedItems payload, item ≠ .null) :
    ∃ r s', (DispatchService.onEmail fmt userId .MENU_OF_THE_DAY payload contact).eval exec c s =
        (.ok r, s') ∧ s'.contacts userId = some contact ∧
      SendsOn .email (contact.reach env .email) s s' := by
  obtain ⟨body, hbody⟩ := exists_bodyFor fmt hpayload
  unfold DispatchService.onEmail
  cases hmails : contact.mailsTo with
  | some email =>
    have hreach : contact.reach env .email = 1 := if_pos (by rw [hmails]; rfl)
    rw [hreach]
    refine ⟨[{ channel := .email, success := true }], mailed s userId email body payload, ?_, hcontact,
      sendsOn_mailed⟩
    dsimp only
    rw [Prog.eval_bind, eval_dispatchEmail hc hbody]
    rfl
  | none =>
    have hreach : contact.reach env .email = 0 := if_neg (by rw [hmails]; nofun)
    rw [hreach]
    exact ⟨[], s, rfl, hcontact, sendsOn_refl⟩

/-- **One request** sends what the user can be reached with. -/
theorem sends_send (hc : c.error = none) {reach : Channel → ℕ} (h : Reached env userId reach s)
    (hpayload : ∀ item ∈ proposedItems payload, item ≠ .null) :
    Sends env userId reach s
      ((DispatchService.send fmt env userId payload "MENU_OF_THE_DAY").eval exec c s).2 := by
  obtain ⟨contact, hcontact, rfl⟩ := h
  obtain ⟨r₁, s₁, heval₁, hcontact₁, mails, hmails, hcount₁⟩ :=
    exists_onEmail fmt env hc hcontact hpayload
  obtain ⟨r₂, s₂, heval₂, hreached, pushes, hpushes, hcount₂⟩ :=
    exists_onPush env payload hc hcontact₁
  have hstate : ((DispatchService.send fmt env userId payload "MENU_OF_THE_DAY").eval exec c s).2 = s₂ := by
    have hfound : exec c (.findUnique userId) s = (.ok (some contact), s) := by
      unfold exec
      rw [hc]
      simp only [serve, hcontact]
    unfold DispatchService.send
    rw [show NOTIFICATION_TYPES.find? (toString · = "MENU_OF_THE_DAY") = some .MENU_OF_THE_DAY from rfl]
    dsimp only
    unfold ask Prog.await DispatchService.dispatchTo
    rw [Prog.call_bind, Prog.eval_call, hfound]
    simp only [Prog.ret_bind, Prog.eval_bind, heval₁, heval₂]
    rfl
  rw [hstate]
  refine ⟨hreached, mails ++ pushes, by rw [hpushes, hmails, List.append_assoc], fun channel => ?_⟩
  unfold menusOn at hcount₁ hcount₂ ⊢
  rw [List.countP_append, hcount₁, hcount₂]
  cases channel <;> simp

end Send

/-! ### A day -/

/-- An event or a request that notification-service gets, from which step of the day, and what its
own calls meet. -/
structure Notice where
  step : ℕ
  op : WorkflowOp
  choice : DispatchChoice

/-- What orchestrator-service has sent of its proposals, each with its step. -/
def notices (os : List Handled) : List (ℕ × WorkflowOp) :=
  os.zipIdx.flatMap fun o => o.1.sent.map fun op => (o.2, op)

/-- Each event is delivered once and each request arrives, in some order, and no call fails. -/
structure Complete (os : List Handled) (schedule : List Notice) : Prop where
  once : (schedule.map fun x => (x.step, x.op)).Perm (notices os)
  served : ∀ x ∈ schedule, x.choice.error = none

section Day

variable [Zero N] [DecidableEq N] (num : ℚ → N) (fmt : Json.NumberFormat N) (env : DispatchEnv)

/-- The code that a notice runs. -/
def dispatchOf : WorkflowOp → Dispatch N Unit
  | .publishMenuProposed userId proposedItems => do
    let _ ← MenuProposedConsumer.handle num fmt env userId proposedItems
  | .sendMenuOfTheDay userId cart => do
    let _ ← NotificationClient.sendMenuOfTheDay num fmt env userId cart
  | _ => return

/-- The messages that are sent, each with the step that it is due to. -/
def dispatchAll : List Notice → Notifications N → List (ℕ × Message N)
  | [], _ => []
  | x :: schedule, s =>
    let s' := ((dispatchOf num fmt env x.op).eval exec x.choice s).2
    (s'.sent.drop s.sent.length).map (fun message => (x.step, message)) ++ dispatchAll schedule s'

end Day

/-- The menus of the day on a channel that a step has led to. -/
def menusOf (step : ℕ) (channel : Channel) (messages : List (ℕ × Message N)) : ℕ :=
  messages.countP fun m => m.1 = step && (m.2.isMenu && m.2.channel = channel)

/-- Each proposal has led to one menu of the day on each channel that is set and not opted out. -/
def OnePerProposal (os : List Handled) (contact : ContactPreference) (messages : List (ℕ × Message N)) :
    Prop :=
  ∀ step o, os[step]? = some o → o.proposal.isSome → ∀ channel, contact.active channel →
    menusOf step channel messages = 1

section Schedule

variable [Zero N] [DecidableEq N] {num : ℚ → N} {fmt : Json.NumberFormat N} {env : DispatchEnv}
  {userId : String} {reach : Channel → ℕ} {s : Notifications N} {c : DispatchChoice}

/-- A notice of a proposal for the user. -/
def OfUser (userId : String) (op : WorkflowOp) : Prop :=
  (∃ proposedItems, op = .publishMenuProposed userId proposedItems) ∨
    ∃ cart, op = .sendMenuOfTheDay userId cart

variable (num fmt) in
/-- **One notice** sends what the user can be reached with. -/
theorem sends_dispatchOf {op : WorkflowOp} (hc : c.error = none) (h : Reached env userId reach s)
    (hop : OfUser userId op) :
    Sends env userId reach s ((dispatchOf num fmt env op).eval exec c s).2 := by
  have hunit : ∀ {p : Dispatch N DispatchReply},
      ((p >>= fun _ => pure ()).eval exec c s).2 = (p.eval exec c s).2 := by
    intro p
    rw [Prog.eval_bind]
    rcases p.eval exec c s with ⟨_ | _, s'⟩ <;> rfl
  rcases hop with ⟨proposedItems, rfl⟩ | ⟨cart, rfl⟩
  · refine (hunit (p := MenuProposedConsumer.handle num fmt env userId proposedItems)).symm ▸ ?_
    refine sends_send hc h fun item hitem => ?_
    obtain ⟨dish, -, rfl⟩ := List.mem_map.mp hitem
    nofun
  · refine (hunit (p := NotificationClient.sendMenuOfTheDay num fmt env userId cart)).symm ▸ ?_
    exact sends_send hc h nofun

/-- The menus of a schedule: for each notice what the user can be reached with. -/
theorem menusOf_dispatchAll {schedule : List Notice} (hserved : ∀ x ∈ schedule, x.choice.error = none)
    (hop : ∀ x ∈ schedule, OfUser userId x.op) (h : Reached env userId reach s) (step : ℕ)
    (channel : Channel) :
    menusOf step channel (dispatchAll num fmt env schedule s) =
      schedule.countP (fun x => x.step = step) * reach channel := by
  induction schedule generalizing s with
  | nil => simp [menusOf, dispatchAll]
  | cons x schedule ih =>
    obtain ⟨hx, hserved⟩ := List.forall_mem_cons.mp hserved
    obtain ⟨hopx, hop⟩ := List.forall_mem_cons.mp hop
    obtain ⟨hreached, messages, hsent, hcount⟩ := sends_dispatchOf num fmt hx h hopx
    unfold dispatchAll
    dsimp only
    rw [hsent, List.drop_left]
    unfold menusOf at ih ⊢
    rw [List.countP_append, ih hserved hop hreached, List.countP_cons, List.countP_map]
    have hx : messages.countP ((fun m : ℕ × Message N =>
        m.1 = step && (m.2.isMenu && m.2.channel = channel)) ∘ fun message => (x.step, message)) =
        if x.step = step then reach channel else 0 := by
      by_cases hstep : x.step = step
      · rw [if_pos hstep, ← hcount channel]
        simp [Function.comp_def, menusOn, hstep]
      · rw [if_neg hstep]
        simp [Function.comp_def, hstep]
    rw [hx]
    by_cases hstep : x.step = step
    · simp [hstep, Nat.add_mul, Nat.add_comm]
    · simp [hstep]

end Schedule

/-! ### The notices of a day -/

theorem countP_zipIdx {os : List Handled} {n step : ℕ} :
    ((os.zipIdx n).flatMap fun o => o.1.sent.map fun op => (o.2, op)).countP (fun x => x.1 = step) =
      if n ≤ step then ((os[step - n]?).map (·.sent.length)).getD 0 else 0 := by
  induction os generalizing n with
  | nil => simp
  | cons o os ih =>
    rw [List.zipIdx_cons, List.flatMap_cons, List.countP_append, ih, List.countP_map]
    rcases lt_trichotomy n step with hlt | rfl | hgt
    · obtain ⟨k, rfl⟩ := Nat.exists_eq_add_of_lt hlt
      simp [Function.comp_def, Nat.add_assoc, show n + (k + 1) - n = k + 1 by omega,
        show n + (k + 1) - (n + 1) = k by omega]
    · simp [Function.comp_def]
    · have hne : ¬ n = step := by omega
      simp [Function.comp_def, hne, show ¬ n ≤ step by omega, show ¬ n + 1 ≤ step by omega]

/-- The notices of one step. -/
theorem countP_notices {os : List Handled} {step : ℕ} {o : Handled} (h : os[step]? = some o) :
    (notices os).countP (fun x => x.1 = step) = o.sent.length := by
  rw [notices, countP_zipIdx, if_pos (Nat.zero_le _), Nat.sub_zero, h]
  rfl

section Announced

variable {userId addressId restaurantId : String} {today : ℤ} {t t' : WorkflowStates} {env : Env}
  {row : WorkflowRow} {os : List Handled} {o : Handled} {call : WorkflowCall}
  {rankedItems : List RankedMenuItem}

/-- What a step has sent is for the user, and a step that has put something up has sent two. -/
structure Announces (userId : String) (o : Handled) : Prop where
  ofUser : ∀ op ∈ o.sent, OfUser userId op
  two : o.proposal.isSome → o.sent.length = 2

theorem announces_noticesOf {reply : Except Err WorkflowReply} {menuItems : List MenuItem}
    {optimizedCart : OptimizedCart}
    (h : Comes (todaysRow userId today) reply row (noticesOf userId menuItems optimizedCart)
      (call.handled userId today env t)) : Announces userId (call.step userId today t env).2 := by
  have hsent : (call.step userId today t env).2.sent = noticesOf userId menuItems optimizedCart := h.sent
  refine ⟨fun op hop => ?_, fun _ => by rw [hsent]; rfl⟩
  rw [hsent] at hop
  rcases List.mem_pair.mp hop with rfl | rfl
  · exact .inl ⟨_, rfl⟩
  · exact .inr ⟨_, rfl⟩

theorem announces_nothing {reply : Except Err WorkflowReply}
    (h : Comes (todaysRow userId today) reply row [] (call.handled userId today env t))
    (hproposal : (call.step userId today t env).2.proposal = none) :
    Announces userId (call.step userId today t env).2 := by
  have hsent : (call.step userId today t env).2.sent = [] := h.sent
  refine ⟨fun op hop => ?_, fun hsome => ?_⟩
  · rw [hsent] at hop
    cases hop
  · rw [hproposal] at hsome
    cases hsome

theorem announces_swap (h : Underway userId addressId restaurantId rankedItems os row)
    (hrow : t (todaysRow userId today) = some row) (henv : env.Answers)
    (hs : swapStep userId today t env = some (t', o)) : Announces userId o := by
  cases hs
  by_cases hphase : row.phase = .AWAITING_APPROVAL
  · obtain ⟨-, -, current, -, -, hshortlist, -⟩ := h.stored
    cases swap_handled henv hrow hphase hshortlist with
    | proposed proposal hselected hcomes => exact announces_noticesOf hcomes
    | skipped hselected hcomes => exact announces_nothing hcomes (proposal_of_skipped hcomes)
  · have hcomes := swap_refused henv hrow hphase
    exact announces_nothing hcomes (proposal_of_refused hcomes)

/-- Every step of a day announces what it has put up. -/
theorem announces_of_run {scout : Env} {reply : WorkflowReply} {swaps : List Handled}
    (hscout : scout.Answers)
    (hok : ((WorkflowCall.runScoutPhase addressId restaurantId).step userId today t scout).2.reply =
      .ok reply)
    (hr : Run (swapStep userId today) (fun _ _ env => env.Answers)
      ((WorkflowCall.runScoutPhase addressId restaurantId).step userId today t scout).1 t' swaps) :
    ∀ o ∈ ((WorkflowCall.runScoutPhase addressId restaurantId).step userId today t scout).2 :: swaps,
      Announces userId o := by
  obtain ⟨proposal, old, hscouted⟩ := scout_handled hscout hok
  have hrun := hr.invariant (fun swaps t' => (∃ row, t' (todaysRow userId today) = some row ∧
      Underway userId addressId restaurantId (scout.rankedItems userId addressId restaurantId)
        (((WorkflowCall.runScoutPhase addressId restaurantId).step userId today t scout).2 :: swaps) row) ∧
      ∀ o ∈ swaps, Announces userId o) ⟨underway_scout hscout hok, fun o ho => absurd ho List.not_mem_nil⟩ ?_
  · exact List.forall_mem_cons.mpr ⟨announces_noticesOf hscouted.comes, hrun.2⟩
  · rintro os s env s' o ⟨⟨row, hrow, h⟩, hall⟩ henv hs
    refine ⟨underway_swap h hrow henv hs, fun o' ho' => ?_⟩
    rcases List.mem_append.mp ho' with ho' | ho'
    · exact hall o' ho'
    · rw [List.mem_singleton.mp ho']
      exact announces_swap h hrow henv hs

end Announced

/-! ### What a day comes to -/

section Days

variable [Zero N] [DecidableEq N] {num : ℚ → N} {fmt : Json.NumberFormat N} {env : DispatchEnv}
  {userId addressId restaurantId : String} {today : ℤ} {t t' : WorkflowStates} {scout : Env}
  {reply : WorkflowReply} {os swaps : List Handled} {schedule : List Notice}
  {contact : ContactPreference} {s : Notifications N}

/-- **Two for each proposal**: a user is sent twice what one request comes to. -/
theorem menusOf_proposal (hannounces : ∀ o ∈ os, Announces userId o) (hschedule : Complete os schedule)
    (hcontact : s.contacts userId = some contact) {step : ℕ} {o : Handled} (ho : os[step]? = some o)
    (hproposal : o.proposal.isSome) (channel : Channel) :
    menusOf step channel (dispatchAll num fmt env schedule s) = 2 * contact.reach env channel := by
  have hop : ∀ x ∈ schedule, OfUser userId x.op := by
    intro x hx
    have hmem := hschedule.once.mem_iff.mp (List.mem_map_of_mem hx)
    obtain ⟨⟨o', k⟩, ho', hsent⟩ := List.mem_flatMap.mp hmem
    obtain ⟨op, hop, heq⟩ := List.mem_map.mp hsent
    obtain ⟨-, rfl⟩ := Prod.mk.inj heq
    exact (hannounces o' (List.fst_mem_of_mem_zipIdx ho')).ofUser _ hop
  have hcount : schedule.countP (fun x => x.step = step) = 2 := by
    have hperm := hschedule.once.countP_eq (fun x => x.1 = step)
    rw [List.countP_map, countP_notices ho,
      (hannounces o (List.mem_of_getElem? ho)).two hproposal] at hperm
    exact hperm
  rw [menusOf_dispatchAll hschedule.served hop ⟨contact, hcontact, rfl⟩, hcount]

/-- **One proposal, one notification**: on a day of a scout that succeeds and of SWAPs, all of whose
events and requests arrive, this holds exactly where no channel of the user is set and not opted
out. -/
theorem onePerProposal_iff (hscout : ∀ i, (scout i).error = none)
    (hok : ((WorkflowCall.runScoutPhase addressId restaurantId).step userId today t scout).2.reply =
      .ok reply)
    (hr : Run (swapStep userId today) (fun _ _ env => ∀ i, (env i).error = none)
      ((WorkflowCall.runScoutPhase addressId restaurantId).step userId today t scout).1 t' swaps)
    (hcontact : s.contacts userId = some contact)
    (hschedule : Complete
      (((WorkflowCall.runScoutPhase addressId restaurantId).step userId today t scout).2 :: swaps)
      schedule) :
    OnePerProposal
        (((WorkflowCall.runScoutPhase addressId restaurantId).step userId today t scout).2 :: swaps)
        contact (dispatchAll num fmt env schedule s) ↔
      ∀ channel, contact.active channel = false := by
  have hanswers : scout.Answers := fun i _ => hscout i
  have hannounces := announces_of_run hanswers hok (hr.mono fun _ _ env henv i _ => henv i)
  constructor
  · intro hone channel
    by_contra hactive
    rw [Bool.not_eq_false] at hactive
    -- the scout has put something up
    obtain ⟨proposal, old, hscouted⟩ := scout_handled hanswers hok
    have hproposal := proposal_of_comes hscouted.comes rfl
    have hsome : (((WorkflowCall.runScoutPhase addressId restaurantId).step userId today t
        scout).2.proposal).isSome := by
      rw [hproposal]
      rfl
    have hmenus := hone 0 _ rfl hsome channel hactive
    rw [menusOf_proposal hannounces hschedule hcontact rfl hsome] at hmenus
    omega
  · intro hnone step o _ _ channel hactive
    rw [hnone channel] at hactive
    cases hactive

end Days

/-! ### A user who reads mails -/

def mailContact : ContactPreference where
  email := some "u@example.org"

def mailUser : Notifications ℤ where
  contacts _ := some mailContact

/-- The event and the request of one scout. -/
def scoutSchedule : List Notice := scouted.2.sent.map fun op => ⟨0, op, {}⟩

theorem complete_scoutSchedule : Complete [scouted.2] scoutSchedule := by
  refine ⟨?_, fun x hx => ?_⟩
  · simp [scoutSchedule, notices, List.map_map, Function.comp_def]
  · obtain ⟨op, -, rfl⟩ := List.mem_map.mp hx
    rfl

theorem scouted_reply : scouted.2.reply =
    .ok (.proposed "u" .AWAITING_APPROVAL { items := [], baseCost := 0, finalTotal := 0 }) := by
  decide +kernel

theorem not_onePerProposal_scouted :
    ¬ OnePerProposal [scouted.2] mailContact
      (dispatchAll Rat.num Json.integers {} scoutSchedule mailUser) := by
  intro h
  have hnone := (onePerProposal_iff (fun i => by cases i <;> rfl) scouted_reply .nil rfl
    complete_scoutSchedule).mp h
  exact absurd (hnone .email) (by decide)

/-- One scout, and two mails. -/
theorem not_onePerProposal :
    ¬ ∀ (userId addressId restaurantId : String) (today : ℤ) (t t' : WorkflowStates) (scout : Env)
      (reply : WorkflowReply) (swaps : List Handled) (schedule : List Notice)
      (contact : ContactPreference) (env : DispatchEnv) (s : Notifications ℤ),
      (∀ i, (scout i).error = none) →
      ((WorkflowCall.runScoutPhase addressId restaurantId).step userId today t scout).2.reply =
        .ok reply →
      Run (swapStep userId today) (fun _ _ env => ∀ i, (env i).error = none)
        ((WorkflowCall.runScoutPhase addressId restaurantId).step userId today t scout).1 t' swaps →
      s.contacts userId = some contact →
      Complete (((WorkflowCall.runScoutPhase addressId restaurantId).step userId today t scout).2 ::
        swaps) schedule →
      OnePerProposal (((WorkflowCall.runScoutPhase addressId restaurantId).step userId today t
        scout).2 :: swaps) contact (dispatchAll Rat.num Json.integers env schedule s) := by
  intro h
  have hone := h "u" "home" "rest-1" 0 (fun _ => none) scouted.1 twoDishesEnv _ [] scoutSchedule
    mailContact {} mailUser (fun i => by cases i <;> rfl) scouted_reply .nil rfl complete_scoutSchedule
  have hmenus := hone 0 scouted.2 rfl (by decide +kernel) .email (by decide)
  exact absurd hmenus (by decide +kernel)

end Gusto.Notification
