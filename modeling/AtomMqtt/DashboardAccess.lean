import AtomMqtt.Effects
import AtomMqtt.WebServer

set_option autoImplicit false

/-! What a request without credentials reaches. The middleware looks at the path alone, and it is in front of
every route. With the authentication of the web interface switched on, only sessions of `/ws/subscribe` get past
it to the state of the broker. -/
namespace AtomMqtt
open Programs

/-- The text that a path has in front if it matches. -/
def Pattern.literal : Pattern → String
  | .path p => p
  | .segment before _ => before
  | .tail => "/"

theorem literal_starts {pattern : Pattern} {path param : String} (h : pattern.matches path = some param) :
    pattern.literal.toList <+: path.toList := by
  have hdropped : ∀ {before rest : List Char}, path.toList.dropPrefix? before = some rest → before <+: path.toList := by
    intro before rest hdrop
    obtain ⟨before', hpath, hbefore⟩ := List.dropPrefix?_eq_some_iff.mp hdrop
    rw [eq_of_beq hbefore] at hpath
    exact ⟨rest, hpath.symm⟩
  cases pattern with
  | path p =>
    simp only [Pattern.matches, Option.ite_none_right_eq_some] at h
    rw [h.1]
    exact List.prefix_rfl
  | segment before after =>
    simp only [Pattern.matches, Option.bind_eq_bind, Option.bind_eq_some_iff] at h
    obtain ⟨rest, hrest, _⟩ := h
    exact hdropped hrest
  | tail =>
    obtain ⟨rest, hrest, _⟩ := Option.map_eq_some_iff.mp h
    exact hdropped hrest

/-- Only these services are for paths outside `/api/`, or for the path of the login. -/
theorem services_outside : ∀ s ∈ services,
    (startsWith s.2.1.literal "/api/" = true ∧ s.2.1.matches "/api/login" = none) ∨
      s = (.POST, .path "/api/login", .login) ∨ s = (.GET, .path "/ws/subscribe", .wsSubscribe) ∨
      s = (.GET, .path "/mqtt", .wsMqtt) ∨ s = (.GET, .tail, .serveEmbeddedFile) := by
  decide +kernel

namespace HttpRequest

def isLogin (req : HttpRequest) : Prop := req.method = .POST ∧ req.path = "/api/login"

def isMqtt (req : HttpRequest) : Prop := req.method = .GET ∧ req.path = "/mqtt"

def isSubscribe (req : HttpRequest) : Prop := req.method = .GET ∧ req.path = "/ws/subscribe"

end HttpRequest

theorem WebServer.RoutesPlain.mqtt {web : WebServer} (hroutes : web.RoutesPlain) {req : HttpRequest} (hplain : req.Plain)
    {param : String} (h : web.route req = some (.wsMqtt, param)) : req.isMqtt := by
  have honly : ∀ s ∈ services, s.2.2 = .wsMqtt → s = (.GET, .path "/mqtt", .wsMqtt) := by decide
  obtain ⟨s, hs, hfound⟩ := hroutes.registered req _ hplain h
  simp only [endpointFor, Option.ite_none_right_eq_some, Option.map_eq_some_iff] at hfound
  obtain ⟨hmethod, param', hmatch, hend⟩ := hfound
  obtain rfl := honly s hs (congrArg Prod.fst hend)
  rw [Pattern.matches, Option.ite_none_right_eq_some] at hmatch
  exact ⟨hmethod, hmatch.1⟩

theorem routed_outside {web : WebServer} (hroutes : web.RoutesPlain) {req : HttpRequest} (hplain : req.Plain)
    (hpath : startsWith req.path "/api/" = false ∨ req.path = "/api/login") {endpoint : Endpoint} {param : String}
    (h : web.route req = some (endpoint, param)) : (endpoint = .login ∧ req.isLogin) ∨
      (endpoint = .wsSubscribe ∧ req.isSubscribe) ∨ (endpoint = .wsMqtt ∧ req.isMqtt) ∨ endpoint = .serveEmbeddedFile := by
  obtain ⟨s, hs, hfound⟩ := hroutes.registered req _ hplain h
  simp only [endpointFor, Option.ite_none_right_eq_some, Option.map_eq_some_iff] at hfound
  obtain ⟨hmethod, param', hmatch, hend⟩ := hfound
  have hendpoint : s.2.2 = endpoint := congrArg Prod.fst hend
  have hexact : ∀ path, s.2.1 = .path path → req.path = path := by
    intro path heq
    rw [heq, Pattern.matches, Option.ite_none_right_eq_some] at hmatch
    exact hmatch.1
  obtain ⟨hapi, hlogin⟩ | rfl | rfl | rfl | rfl := services_outside s hs
  · cases hpath with
    | inl hpath =>
      have hprefix := (List.isPrefixOf_iff_prefix.mp hapi).trans (literal_starts hmatch)
      rw [startsWith, List.isPrefixOf_iff_prefix.mpr hprefix] at hpath
      cases hpath
    | inr hpath =>
      rw [hpath, hlogin] at hmatch
      cases hmatch
  · exact .inl ⟨hendpoint.symm, hmethod, hexact _ rfl⟩
  · exact .inr (.inl ⟨hendpoint.symm, hmethod, hexact _ rfl⟩)
  · exact .inr (.inr (.inl ⟨hendpoint.symm, hmethod, hexact _ rfl⟩))
  · exact .inr (.inr (.inr hendpoint.symm))

/-- A request without the credentials, with a plain path, for neither the login nor MQTT. -/
structure WebServer.Stranger (web : WebServer) (req : HttpRequest) : Prop where
  unauthenticated : web.authenticated req = false
  plain : req.Plain
  notLogin : ¬ req.isLogin
  notMqtt : ¬ req.isMqtt

instance (req : HttpRequest) : Decidable req.isLogin := inferInstanceAs (Decidable (_ ∧ _))

instance (req : HttpRequest) : Decidable req.isMqtt := inferInstanceAs (Decidable (_ ∧ _))

instance (req : HttpRequest) : Decidable req.Plain := inferInstanceAs (Decidable (_ ∉ _))

instance (web : WebServer) (req : HttpRequest) : Decidable (web.Stranger req) :=
  decidable_of_iff (web.authenticated req = false ∧ req.Plain ∧ ¬ req.isLogin ∧ ¬ req.isMqtt)
    ⟨fun h => ⟨h.1, h.2.1, h.2.2.1, h.2.2.2⟩, fun h => ⟨h.unauthenticated, h.plain, h.notLogin, h.notMqtt⟩⟩

/-- What such a request is answered, whatever the state of the broker. -/
def WebServer.strangerAnswer (web : WebServer) (req : HttpRequest) : HttpResponse :=
  if startsWith req.path "/api/" ∧ req.path ≠ "/api/login" then unauthorized
  else
    match web.route req with
    | some (.wsSubscribe, _) =>
      match web.handshake req with
      | .ok () => .SwitchingProtocols
      | .error response => response
    | some _ => embeddedFile web req.path
    | none => web.unrouted req

def SessionMay (id : String) : Action → Prop
  | .selectWeb => True
  | .text _ => True
  | .pong _ => True
  | .subscribe clientId _ _ => clientId = id
  | .unsubscribe clientId _ => clientId = id
  | .webSubscribersContains clientId => clientId = id
  | .webSubscribersInsert clientId => clientId = id
  | .webSubscribersRemove clientId => clientId = id
  | .dropReceiver => True
  | _ => False

/-- The actions of such a request, and of the session that it becomes. A task that is no connection has no receiver to
    drop. -/
def WebServer.StrangerMay (web : WebServer) (uuid : String) (req : HttpRequest) : WebAction → Prop
  | .respond response => response = web.strangerAnswer req
  | .broker .dropReceiver => True
  | .broker a => req.isSubscribe ∧ SessionMay (subscriberId uuid) a
  | _ => False

theorem strangerMay_of_session {web : WebServer} {uuid : String} {req : HttpRequest} {a : Action}
    (hsubscribe : req.isSubscribe) (h : SessionMay (subscriberId uuid) a) : web.StrangerMay uuid req (.broker a) := by
  cases a <;> first | exact ⟨hsubscribe, h⟩ | exact h.elim | trivial

theorem session_of_strangerMay {web : WebServer} {uuid : String} {req : HttpRequest} {a : Action}
    (h : web.StrangerMay uuid req (.broker a)) : a = .dropReceiver ∨ (req.isSubscribe ∧ SessionMay (subscriberId uuid) a) := by
  cases a <;> first | exact .inl rfl | exact .inr h

/-- Where the task of such a request is between its turns. -/
def StrangerAt (uuid : String) (req : HttpRequest) (c : WebControl) : Prop :=
  c = .http uuid req ∨ (∃ ok, c = .broker (.exited ok)) ∨
    (req.isSubscribe ∧ ∃ subs, c = .broker (.webSession (subscriberId uuid) subs))

section
variable {web : WebServer} {uuid : String} {req : HttpRequest} {α : Type}

/-- A task is watched with the request that it began with, if that is a stranger's. -/
def strangerMonitor (web : WebServer) : Monitor WebAction WebReply (Option (String × HttpRequest)) where
  allows := fun began a => ∀ uuid req, began = some (uuid, req) → web.StrangerMay uuid req a
  next := fun began _ _ => began

def StrangerEnd (web : WebServer) (began : Option (String × HttpRequest)) (c : WebControl) : Prop :=
  ∀ uuid req, began = some (uuid, req) → web.Stranger req ∧ StrangerAt uuid req c

theorem unwatched (p : Web WebControl) : Meets (strangerMonitor web) (StrangerEnd web) none p := by
  induction p with
  | ret c =>
    apply Meets.ret
    intro uuid req hbegan
    cases hbegan
  | act a k ih =>
    apply Meets.act
    · intro uuid req hbegan
      cases hbegan
    · exact ih

theorem answer_meets (hstranger : web.Stranger req) {response : HttpResponse}
    (h : response = web.strangerAnswer req) :
    Meets (strangerMonitor web) (StrangerEnd web) (some (uuid, req)) (answer response) := by
  apply Meets.act
  · rintro _ _ ⟨⟩
    exact h
  · intro _
    apply Meets.ret
    rintro _ _ ⟨⟩
    exact ⟨hstranger, .inr (.inl ⟨true, rfl⟩)⟩

theorem wsSubscribe_meets (hstranger : web.Stranger req) (hsubscribe : req.isSubscribe) {param : String}
    (hroute : web.route req = some (.wsSubscribe, param)) :
    Meets (strangerMonitor web) (StrangerEnd web) (some (uuid, req)) (wsSubscribe web uuid req) := by
  have hpath : ¬ (startsWith req.path "/api/" ∧ req.path ≠ "/api/login") := by
    rw [hsubscribe.2]
    decide +kernel
  unfold wsSubscribe
  cases hshake : web.handshake req with
  | error response =>
    have hanswer : web.strangerAnswer req = response := by
      rw [WebServer.strangerAnswer, if_neg hpath, hroute, hshake]
    exact answer_meets hstranger hanswer.symm
  | ok accepted =>
    have hanswer : web.strangerAnswer req = .SwitchingProtocols := by
      rw [WebServer.strangerAnswer, if_neg hpath, hroute, hshake]
    apply Meets.act
    · rintro _ _ ⟨⟩
      exact hanswer.symm
    · intro _
      apply Meets.ret
      rintro _ _ ⟨⟩
      exact ⟨hstranger, .inr (.inr ⟨hsubscribe, [], rfl⟩)⟩

theorem serve_meets (hroutes : web.RoutesPlain) (henabled : web.config.webAuthEnabled = true) (hstranger : web.Stranger req) :
    Meets (strangerMonitor web) (StrangerEnd web) (some (uuid, req)) (serve web uuid req) := by
  by_cases hguarded : startsWith req.path "/api/" ∧ req.path ≠ "/api/login"
  · have hrefused : serve web uuid req = answer unauthorized := by
      simp [serve, webAuthMiddleware, hguarded, henabled, hstranger.unauthenticated]
    rw [hrefused]
    exact answer_meets hstranger (if_pos hguarded).symm
  · have houtside : startsWith req.path "/api/" = false ∨ req.path = "/api/login" := by
      simpa [or_iff_not_imp_left] using hguarded
    have hpassed : serve web uuid req = handleRequest web uuid req := by
      cases houtside with
      | inl hpath => simp [serve, webAuthMiddleware, hpath]
      | inr hpath => simp [serve, webAuthMiddleware, hpath]
    rw [hpassed, handleRequest]
    cases hroute : web.route req with
    | none =>
      apply answer_meets hstranger
      rw [WebServer.strangerAnswer, if_neg hguarded, hroute]
    | some found =>
      obtain ⟨endpoint, param⟩ := found
      obtain ⟨-, hlogin⟩ | ⟨rfl, hsubscribe⟩ | ⟨-, hmqtt⟩ | rfl := routed_outside hroutes hstranger.plain houtside hroute
      · exact absurd hlogin hstranger.notLogin
      · exact wsSubscribe_meets hstranger hsubscribe hroute
      · exact absurd hmqtt hstranger.notMqtt
      · apply answer_meets hstranger
        rw [WebServer.strangerAnswer, if_neg hguarded, hroute]

end

section
variable {id : String} {subs : List String}

def SessionEnd (id : String) (c : Control) : Prop := (∃ subs, c = .webSession id subs) ∨ ∃ ok, c = .exited ok

def Stays (id : String) (p : Broker Control) : Prop := Meets (.only (SessionMay id)) (fun _ c => SessionEnd id c) () p

theorem Stays.going (subs : List String) : Stays id (return .webSession id subs) := .ret (.inl ⟨subs, rfl⟩)

theorem Stays.run {a : Action} {f : Unit → Broker Control} (ha : SessionMay id a) (hf : Stays id (f ())) :
    Stays id (run a >>= f) := .act ha fun _ => hf

theorem Stays.ask {a : Action} {f : Reply a → Broker Control} (ha : SessionMay id a) (hf : ∀ r, Stays id (f r)) :
    Stays id (ask a >>= f) := .act ha hf

theorem webSubscribe_stays (topicFilter : String) (qosVal : ℕ) : Stays id (webSubscribe id subs topicFilter qosVal) := by
  unfold webSubscribe
  cases topicFilter.isEmpty with
  | true => exact .run (a := .text _) trivial (.going subs)
  | false =>
    refine Stays.run (a := .subscribe id topicFilter _) rfl ?_
    refine Stays.ask (a := .webSubscribersContains id) rfl fun known => ?_
    cases known with
    | true => exact .run (a := .text _) trivial (.going _)
    | false => exact .run (a := .webSubscribersInsert id) rfl (.run (a := .text _) trivial (.going _))

theorem webUnsubscribe_stays (topicFilter : String) : Stays id (webUnsubscribe id subs topicFilter) := by
  unfold webUnsubscribe
  cases topicFilter.isEmpty with
  | true => exact .going subs
  | false => exact .run (a := .unsubscribe id topicFilter) rfl (.run (a := .text _) trivial (.going _))

theorem webCommand_stays (command : WebCommand) : Stays id (webCommand id subs command) := by
  cases command with
  | invalid => exact .run (a := .text _) trivial (.going subs)
  | subscribe topicFilter qosVal => exact webSubscribe_stays topicFilter qosVal
  | unsubscribe topicFilter => exact webUnsubscribe_stays topicFilter
  | ping => exact .run (a := .text _) trivial (.going subs)
  | unknown => exact .run (a := .text _) trivial (.going subs)

theorem webCleanup_stays : Stays id (webCleanup id subs) := by
  have hunsubscribes : Meets (.only (SessionMay id)) (fun _ _ => True) ()
      (subs.forM fun filter => run (.unsubscribe id filter)) := by
    apply Meets.forM trivial
    intro filter _ _ _
    exact .act (o := Action.unsubscribe id filter) rfl fun _ => .ret trivial
  apply hunsubscribes.seq
  intro _ _ _
  exact .act (o := Action.webSubscribersRemove id) rfl fun _ => .ret (Or.inr ⟨true, rfl⟩)

theorem handleWsSession_stays : Stays id (handleWsSession id subs) := by
  refine Stays.ask (a := .selectWeb) trivial fun event => ?_
  cases event with
  | frame f =>
    cases f with
    | text command => exact webCommand_stays command
    | ping bytes => exact .run (a := .pong bytes) trivial (.going subs)
    | close => exact webCleanup_stays
    | other => exact .going subs
  | forwarded message =>
    refine Stays.ask (a := .text message) trivial fun sent => ?_
    cases sent with
    | true => exact .going subs
    | false => exact webCleanup_stays
  | closed => exact webCleanup_stays

end

abbrev WebConfigState := Config ThreadId Node WebAction WebReply WebControl

abbrev WebServerEvent := Event ThreadId WebAction WebReply WebControl WorldStep

/-- At most the subscriptions of this id changed, one at a time, and which channel is its own. -/
structure OwnSubscription (id : String) (s s' : Shared) : Prop where
  tree : s'.broker.subscriptions = s.broker.subscriptions ∨
    (∃ filter qos, s'.broker.subscriptions = s.broker.subscriptions.subscribe id filter qos) ∨
    ∃ filter, s'.broker.subscriptions = s.broker.subscriptions.unsubscribe id filter
  broker : s'.broker =
    { s.broker with subscriptions := s'.broker.subscriptions, webSubscribers := s'.broker.webSubscribers }
  queue : s'.queue = s.queue
  events : s'.events = s.events

theorem OwnSubscription.refl (id : String) (s : Shared) : OwnSubscription id s s := ⟨.inl rfl, rfl, rfl, rfl⟩

theorem ownSubscription_of_perform {id : String} {i : ThreadId} {s s' : Shared} {a : Action} {input : Input} {r : Reply a}
    (h : s.perform i a input = some (s', r)) (hmay : SessionMay id a) : OwnSubscription id s s' := by
  obtain ⟨hbroker, hqueue, hevents⟩ := performed_of_perform h
  suffices hown : OwnSubscription id s { s with broker := a.onBroker i s.broker } by
    obtain ⟨htree, hframe, -, -⟩ := hown
    rw [← hbroker] at htree hframe
    have hkept : a.onQueue i s.queue = s.queue ∧ a.onEvents i s.events = s.events := by
      cases a <;> first | exact ⟨rfl, rfl⟩ | cases hmay
    exact ⟨htree, hframe, hqueue.trans hkept.1, hevents.trans hkept.2⟩
  cases a with
  | subscribe clientId filter qos =>
    cases hmay
    exact ⟨.inr (.inl ⟨filter, qos, rfl⟩), rfl, rfl, rfl⟩
  | unsubscribe clientId filter =>
    cases hmay
    exact ⟨.inr (.inr ⟨filter, rfl⟩), rfl, rfl, rfl⟩
  | webSubscribersInsert clientId => cases i <;> exact ⟨.inl rfl, rfl, rfl, rfl⟩
  | webSubscribersRemove | webSubscribersContains | selectWeb | text | pong | dropReceiver => exact ⟨.inl rfl, rfl, rfl, rfl⟩
  | _ => cases hmay

section
variable {web : WebServer} {settings : Settings} {cfg₀ cfg cfg' : WebConfigState} {evs : List WebServerEvent}

def strangerObserver (web : WebServer) : Observer ThreadId WebAction WebReply WebControl (Option (String × HttpRequest)) where
  monitor := fun _ => strangerMonitor web
  begin := fun _ c =>
    match c with
    | .http uuid req => if web.Stranger req then some (uuid, req) else none
    | .broker _ => none

theorem stranger_covers (hroutes : web.RoutesPlain) (henabled : web.config.webAuthEnabled = true) :
    (strangerObserver web).Covers (webSystem web settings) fun _ => StrangerEnd web where
  start := by
    intro node i c _ uuid req hbegan
    cases c with
    | http uuid' req' =>
      simp only [strangerObserver, Option.ite_none_right_eq_some, Option.some.injEq, Prod.mk.injEq] at hbegan
      obtain ⟨hstranger, rfl, rfl⟩ := hbegan
      exact ⟨hstranger, .inl rfl⟩
    | broker c => cases hbegan
  body := by
    intro i began c hend
    cases began with
    | none => exact unwatched _
    | some began =>
      obtain ⟨uuid, req⟩ := began
      obtain ⟨hstranger, rfl | ⟨ok, rfl⟩ | ⟨hsubscribe, subs, rfl⟩⟩ := hend uuid req rfl
      · exact serve_meets hroutes henabled hstranger
      · apply Meets.act
        · rintro _ _ ⟨⟩
          trivial
        · intro _
          exact .ret hend
      · change Meets (strangerMonitor web) _ _ (liftBroker (WebControl.broker <$> handleWsSession _ subs))
        apply Meets.into (N := SessionMay (subscriberId uuid))
        · rintro a ha _ _ ⟨⟩
          exact strangerMay_of_session hsubscribe ha
        · intro _ _
          rfl
        · rw [map_eq_pure_bind]
          apply Meets.seq handleWsSession_stays
          rintro _ c hc
          apply Meets.ret
          rintro _ _ ⟨⟩
          refine ⟨hstranger, ?_⟩
          obtain ⟨subs', rfl⟩ | ⟨ok, rfl⟩ := hc
          · exact .inr (.inr ⟨hsubscribe, subs', rfl⟩)
          · exact .inr (.inl ⟨ok, rfl⟩)

theorem stranger_may (hroutes : web.RoutesPlain) (henabled : web.config.webAuthEnabled = true)
    (hfresh : ∀ i, cfg₀.thread i = .fresh)
    (hrun : (webSystem web settings).Run cfg₀ evs cfg) {i : ThreadId} {a : WebAction} {r : WebReply a}
    (hstep : (webSystem web settings).Step cfg (.act i a r) cfg') {uuid : String} {req : HttpRequest}
    (hspawn : .spawn i (.http uuid req) ∈ evs) (hstranger : web.Stranger req) :
    web.StrangerMay uuid req a ∧
      ∃ input, (webSystem web settings).perform i cfg.shared a input = some (cfg'.shared, r) := by
  have hghost : (strangerObserver web).ghosts (fun _ => none) evs i = (strangerObserver web).begin i (.http uuid req) :=
    (Observer.ghosts_of_spawn (fun _ _ _ _ => rfl) hrun hspawn).2
  cases hstep with
  | act hrunning hnext hperform =>
    refine ⟨?_, _, hperform⟩
    apply (stranger_covers hroutes henabled).allows hfresh hrun hrunning hnext
    rw [hghost]
    exact if_pos hstranger

theorem stranger_noConnection (hroutes : web.RoutesPlain) (hrun : (webSystem web settings).Run cfg₀ evs cfg) {k : ConnId}
    {uuid : String} {req : HttpRequest} (hspawn : .spawn (.connection k) (.http uuid req) ∈ evs) : ¬ web.Stranger req := by
  intro hstranger
  obtain ⟨node, hstart⟩ := System.RunWhere.started _ hrun hspawn
  obtain ⟨⟨endpoint, param⟩, hroute, hendpoint⟩ := Option.map_eq_some_iff.mp (beq_iff_eq.mp hstart)
  cases hendpoint
  exact hstranger.notMqtt (hroutes.mqtt hstranger.plain hroute)

theorem stranger_step (hroutes : web.RoutesPlain) (henabled : web.config.webAuthEnabled = true)
    (hfresh : ∀ i, cfg₀.thread i = .fresh)
    (hrun : (webSystem web settings).Run cfg₀ evs cfg) {i : ThreadId} {a : WebAction} {r : WebReply a}
    (hstep : (webSystem web settings).Step cfg (.act i a r) cfg') {uuid : String} {req : HttpRequest}
    (hspawn : .spawn i (.http uuid req) ∈ evs) (hstranger : web.Stranger req) :
    OwnSubscription (subscriberId uuid) cfg.shared.shared cfg'.shared.shared ∧
      (¬ req.isSubscribe → cfg'.shared = cfg.shared ∧ a = .respond (web.strangerAnswer req)) := by
  obtain ⟨hmay, input, hperform⟩ := stranger_may hroutes henabled hfresh hrun hstep hspawn hstranger
  cases a with
  | respond response =>
    have hsame : cfg.shared = cfg'.shared := congrArg Prod.fst (Option.some.inj hperform)
    rw [hsame, hmay]
    exact ⟨.refl _ _, fun _ => ⟨rfl, rfl⟩⟩
  | broker a =>
    obtain ⟨⟨shared, r'⟩, hshared, heq⟩ := Option.map_eq_some_iff.mp hperform
    have hnext : { cfg.shared with shared } = cfg'.shared := congrArg Prod.fst heq
    obtain rfl | ⟨hsubscribe, hsession⟩ := session_of_strangerMay hmay
    · obtain ⟨k, rfl, -, -⟩ := dropReceiver_cases hshared
      exact absurd hstranger (stranger_noConnection hroutes hrun hspawn)
    · rw [← hnext]
      exact ⟨ownSubscription_of_perform hshared hsession, fun hother => absurd hsubscribe hother⟩
  | _ => cases hmay

/-- Nobody acts but the tasks of such requests, and the broker is not started again. -/
def StrangersOnly (web : WebServer) (evs : List WebServerEvent) (e : WebServerEvent) : Prop :=
  (∀ i a r, e = .act i a r → ∃ uuid req, .spawn i (.http uuid req) ∈ evs ∧ web.Stranger req) ∧ e ≠ .world .restart

/-- The state that the requests of strangers leave as it is. -/
structure Untouched (evs : List WebServerEvent) (s s' : Shared) : Prop where
  sessions : s'.broker.sessions = s.broker.sessions
  retained : s'.broker.retained = s.broker.retained
  queue : s'.queue = s.queue
  tree : (∀ i uuid req, .spawn i (.http uuid req) ∈ evs → ¬ req.isSubscribe) →
    s'.broker.subscriptions = s.broker.subscriptions

theorem Untouched.trans {evs evs' : List WebServerEvent} {s s₁ s' : Shared} (h : Untouched evs s s₁)
    (h' : Untouched evs' s₁ s') (hsub : evs ⊆ evs') : Untouched evs' s s' where
  sessions := h'.sessions.trans h.sessions
  retained := h'.retained.trans h.retained
  queue := h'.queue.trans h.queue
  tree := fun hnone => (h'.tree hnone).trans (h.tree fun i uuid req hspawn => hnone i uuid req (hsub hspawn))

theorem untouched_of_run (hroutes : web.RoutesPlain) (henabled : web.config.webAuthEnabled = true)
    (hfresh : ∀ i, cfg₀.thread i = .fresh)
    (hrun : (webSystem web settings).RunWhere (fun evs _ e _ => StrangersOnly web evs e) cfg₀ evs cfg) :
    Untouched evs cfg₀.shared.shared cfg.shared.shared := by
  induction hrun with
  | nil => exact ⟨rfl, rfl, rfl, fun _ => rfl⟩
  | @snoc evs cfg cfg' e run step only ih =>
    suffices hstep : Untouched (evs ++ [e]) cfg.shared.shared cfg'.shared.shared from
      ih.trans hstep (List.subset_append_left evs [e])
    have hrun : (webSystem web settings).Run cfg₀ evs cfg := run.mono _ fun _ _ _ _ _ => trivial
    cases e with
    | spawn i c =>
      cases step with
      | spawn _ _ => exact ⟨rfl, rfl, rfl, fun _ => rfl⟩
    | act i a r =>
      obtain ⟨uuid, req, hspawn, hstranger⟩ := only.1 i a r rfl
      obtain ⟨hown, hother⟩ := stranger_step hroutes henabled hfresh hrun step hspawn hstranger
      refine ⟨?_, ?_, hown.queue, ?_⟩
      · rw [hown.broker]
      · rw [hown.broker]
      · intro hnone
        rw [(hother (hnone i uuid req (List.mem_append_left _ hspawn))).1]
    | world w =>
      cases w with
      | commit n =>
        cases step with
        | world hworld =>
          cases hworld
          exact ⟨rfl, rfl, rfl, fun _ => rfl⟩
      | restart => exact absurd rfl only.2

/-- With the authentication switched on, a request without credentials that is for neither the login nor MQTT
    leaves the sessions, the retained messages and the router's queue as they are. If it is not for
    `/ws/subscribe`, it does nothing but take an answer that says nothing of the state of the broker; a session of
    `/ws/subscribe` is in the tree under its own id only. -/
theorem dashboard_closed (web : WebServer) (settings : Settings) (hroutes : web.RoutesPlain)
    (henabled : web.config.webAuthEnabled = true) {cfg₀ : WebConfigState} (hfresh : ∀ i, cfg₀.thread i = .fresh) :
    (∀ evs cfg, (webSystem web settings).Run cfg₀ evs cfg → ∀ i a r cfg',
      (webSystem web settings).Step cfg (.act i a r) cfg' → ∀ uuid req, .spawn i (.http uuid req) ∈ evs →
        web.Stranger req → OwnSubscription (subscriberId uuid) cfg.shared.shared cfg'.shared.shared ∧
          (¬ req.isSubscribe → cfg'.shared = cfg.shared ∧ a = .respond (web.strangerAnswer req))) ∧
    ∀ evs cfg, (webSystem web settings).RunWhere (fun evs _ e _ => StrangersOnly web evs e) cfg₀ evs cfg →
      Untouched evs cfg₀.shared.shared cfg.shared.shared := by
  constructor
  · intro evs cfg hrun i a r cfg' hstep uuid req hspawn hstranger
    exact stranger_step hroutes henabled hfresh hrun hstep hspawn hstranger
  · intro evs cfg hrun
    exact untouched_of_run hroutes henabled hfresh hrun

end

/-- A server with the credentials `admin:admin`; it knows one text in base 64. -/
def guardedServer : WebServer where
  config :=
    { info := { tcpHost := "0.0.0.0", tcpPort := 1883, webHost := "0.0.0.0", webPort := 8081, maxPacketSize := 10485760
                allowAnonymous := true, sessionExpiryInterval := 3600 }
      webAuthEnabled := true, webAuthUsername := "admin", webAuthPassword := "admin" }
  staticDir := fun _ => none
  mimeGuess := fun _ => "application/octet-stream"
  decodeBase64 := fun s => if s = "YWRtaW46YWRtaW4=" then some (asBytes "admin:admin") else none
  fromUtf8Lossy := fun bytes => (fromUtf8 bytes).getD ""
  percentDecode := id
  readPublish := fun _ => .error ⟨400, [], .empty⟩
  readLogin := fun _ => .error ⟨400, [], .empty⟩
  handshake := fun req => if req.headers.lookup "upgrade" = some (asBytes "websocket") then .ok () else .error ⟨400, [], .empty⟩
  route := fun req => services.findSome? (endpointFor req.method req.path)
  unrouted := fun _ => ⟨404, [], .empty⟩

theorem guardedServer_routesPlain : guardedServer.RoutesPlain where
  registered := fun _ _ _ hroute => List.exists_of_findSome?_eq_some hroute

def initialWeb : WebConfigState where
  shared := { shared := Shared.start BrokerState.new [], database := Database.empty, life := 0 }
  thread := fun _ => .fresh

def strangersOnly (web : WebServer) (evs : List WebServerEvent) : WebServerEvent → Bool
  | .act i _ _ => evs.any fun
    | .spawn j (.http _ req) => j = i && decide (web.Stranger req)
    | _ => false
  | .world w => w != .restart
  | .spawn _ _ => true

theorem strangersOnly_spec {web : WebServer} {evs : List WebServerEvent} {e : WebServerEvent}
    (h : strangersOnly web evs e = true) : StrangersOnly web evs e := by
  constructor
  · rintro i a r rfl
    obtain ⟨sent, hsent, hstranger⟩ := List.any_eq_true.mp h
    split at hstranger
    · simp only [Bool.and_eq_true, decide_eq_true_eq] at hstranger
      obtain ⟨rfl, hreq⟩ := hstranger
      exact ⟨_, _, hsent, hreq⟩
    · cases hstranger
  · rintro rfl
    cases h

def strangerRun (moves : List (Move ThreadId WebControl Input WorldStep)) : Option (List WebServerEvent × WebConfigState) :=
  (webSystem guardedServer openSettings).execWhere (fun evs _ e _ => strangersOnly guardedServer evs e) [] initialWeb moves

def clientsRequest : HttpRequest := { method := .GET, path := "/api/clients", headers := [], body := [] }

def subscribeRequest : HttpRequest :=
  { method := .GET, path := "/ws/subscribe", headers := [("upgrade", asBytes "websocket")], body := [] }

theorem dashboard_closed_clients : ∃ evs cfg, strangerRun
      [.spawn (.request 0) (.http "0" clientsRequest), .act (.request 0) .go] = some (evs, cfg) ∧
    Untouched evs initialWeb.shared.shared cfg.shared.shared := by
  have hexec : (strangerRun [.spawn (.request 0) (.http "0" clientsRequest), .act (.request 0) .go]).isSome = true := by
    decide +kernel
  obtain ⟨⟨evs, cfg⟩, hrun⟩ := Option.isSome_iff_exists.mp hexec
  refine ⟨evs, cfg, hrun, ?_⟩
  apply (dashboard_closed guardedServer openSettings guardedServer_routesPlain rfl fun _ => rfl).2
  exact System.execWhere_run _ (fun _ _ _ _ => strangersOnly_spec) .nil hrun

/-- A session that anyone may open subscribes to everything. -/
theorem dashboard_subscribes : ∃ evs cfg,
    (webSystem guardedServer openSettings).RunWhere (fun evs _ e _ => StrangersOnly guardedServer evs e) initialWeb evs cfg ∧
      guardedServer.config.webAuthEnabled = true ∧
      initialWeb.shared.shared.broker.subscriptions.allSubscriptions = [] ∧
      cfg.shared.shared.broker.subscriptions.allSubscriptions =
        [{ clientId := "webui-sub-0", filter := "#", qos := .AtMostOnce }] := by
  have hexec : (strangerRun [.spawn (.web 0) (.http "0" subscribeRequest), .act (.web 0) .go,
      .act (.web 0) (.webFrame (.text (.subscribe "#" 0))), .act (.web 0) .go]).map
        (fun last => last.2.shared.shared.broker.subscriptions.allSubscriptions) =
      some [{ clientId := "webui-sub-0", filter := "#", qos := .AtMostOnce }] := by
    decide +kernel
  obtain ⟨⟨evs, cfg⟩, hrun, htree⟩ := Option.map_eq_some_iff.mp hexec
  exact ⟨evs, cfg, System.execWhere_run _ (fun _ _ _ _ => strangersOnly_spec) .nil hrun, rfl, by decide +kernel, htree⟩

end AtomMqtt
