-- SUMMARY: Which requests reach a protected handler, whatever runs beside them, and what the others are told.
import Sulis.Http.Middleware
import Sulis.Properties.AuthenticSession
import Sulis.Properties.Scenario

/-!
# Admission

A handler behind `Authenticate` and any guards, in any order, is reached by a request
only if every guard admits it and the token it presents is that of a live session of
the user in its context. Every other request is refused, with an answer that must not
be cached: 403 if a guard did not admit it, 401 if there was no token or it was not
accepted.
-/

namespace Sulis.Http

open Interaction Interaction.System

/-! ## What a request must show -/

def Request.Safe (r : Request) : Prop :=
  r.method = "GET" ∨ r.method = "HEAD" ∨ r.method = "OPTIONS"

/-- The browser vouches for the request, or it comes from a listed origin, or nothing
    says that it comes from a page at all. -/
def Request.Trusted (r : Request) (allowed : List String) : Prop :=
  (r.header "Sec-Fetch-Site" = "" ∧ r.header "Origin" = "") ∨
    r.header "Sec-Fetch-Site" = "same-origin" ∨ r.header "Sec-Fetch-Site" = "none" ∨
    (r.header "Origin" ≠ "" ∧ r.header "Origin" ∈ allowed)

/-- The request repeats the value of its cookie in the header, or in the form if it has
    no such header. -/
def Request.Echoes (r : Request) (cookieName : String) : Prop :=
  ∃ value, value ≠ "" ∧ r.cookie? cookieName = some value ∧
    (r.header csrfHeaderName = value ∨
      (r.header csrfHeaderName = "" ∧ r.formValue csrfFormField = value))

/-- The cookie a guard compares with. -/
def csrfCookie (s : WebSettings) (bound : Bool) : String :=
  if bound then s.csrfCookieName else csrfCookieName

def Guard.Admits (s : WebSettings) : Guard → Request → Prop
  | .sameOrigin _ allowed, r => r.Safe ∨ r.Trusted allowed
  | .csrfToken bound, r => r.Safe ∨ r.Echoes (csrfCookie s bound)

/-- The request presents the token through a channel that is open. -/
def Request.Presents (r : Request) (s : WebSettings) (token : String) : Prop :=
  token ≠ "" ∧
    ((s.tokenSource ≠ .cookieOnly ∧ r.header "Authorization" ≠ "" ∧
        (cutPrefix (r.header "Authorization") "Bearer ").map trimSpace = some token) ∨
      (s.tokenSource ≠ .bearerOnly ∧
        (s.tokenSource = .cookieOnly ∨ r.header "Authorization" = "") ∧
        r.cookie? s.cookieName = some token))

variable {s : WebSettings} {r : Request}

theorem isSafeMethod_iff : isSafeMethod r.method = true ↔ r.Safe := by
  simp [isSafeMethod, Request.Safe]

theorem originVerdict_iff {allowed : List String} :
    (originVerdict allowed (r.header "Sec-Fetch-Site") (r.header "Origin")).1 = true ↔
      r.Trusted allowed := by
  unfold originVerdict Request.Trusted
  generalize r.header "Sec-Fetch-Site" = site
  generalize r.header "Origin" = origin
  by_cases hnone : site = "" ∧ origin = ""
  · simp [hnone]
  by_cases hself : site = "same-origin" ∨ site = "none"
  · rcases hself with rfl | rfl <;> simp
  rw [if_neg hnone, if_neg hself]
  by_cases horigin : origin = ""
  · subst horigin
    have hsite : site ≠ "" := fun h => hnone ⟨h, rfl⟩
    push Not at hself
    by_cases hsame : site = "same-site" <;> simp [hsame, hsite, hself]
  · push Not at hself
    simp [horigin, hself]

theorem verifyCSRFToken_iff {cookieName : String} :
    verifyCSRFToken r cookieName = true ↔ r.Echoes cookieName := by
  unfold verifyCSRFToken Request.Echoes
  cases r.cookie? cookieName with
  | none => simp
  | some value =>
    by_cases hvalue : value = ""
    · simp [hvalue]
    by_cases hheader : r.header csrfHeaderName = ""
    · by_cases hform : r.formValue csrfFormField = ""
      · simp [hvalue, hheader, hform]
      · simp [hvalue, hheader, hform, eq_comm]
    · simp [hvalue, hheader, eq_comm]

/-- A guard either admits a request and lets it pass, or refuses it with 403. -/
theorem Guard.refuse?_cases (g : Guard) (s : WebSettings) (r : Request) :
    (g.Admits s r ∧ g.refuse? s r = none) ∨
      (¬ g.Admits s r ∧ ∃ events, g.refuse? s r = some (forbidden events)) := by
  have shared {P : Prop} {receiver : Option WebSettings} {kind : RejectionKind} {allow : Bool}
      {reason : String} (hallow : allow = true ↔ P) :
      ((r.Safe ∨ P) ∧ refuseUnsafe receiver r kind allow reason = none) ∨
        (¬ (r.Safe ∨ P) ∧
          ∃ events, refuseUnsafe receiver r kind allow reason = some (forbidden events)) := by
    unfold refuseUnsafe
    rw [← hallow, ← isSafeMethod_iff]
    cases isSafeMethod r.method <;> cases allow <;> simp
  cases g with
  | sameOrigin bound allowed => exact shared originVerdict_iff
  | csrfToken bound =>
    have hname : cookieNameFor (receiver s bound) = csrfCookie s bound := by
      cases bound with
      | false | true => rfl
    exact shared (hname ▸ verifyCSRFToken_iff)

/-- Guards in front of a handler let a request through if each of them admits it, in
    whatever order they come. -/
theorem protect_cases (guards : List Guard) (s : WebSettings) (next : Request → Option Refusal)
    (r : Request) :
    ((∀ g ∈ guards, g.Admits s r) ∧ protect s guards next r = next r) ∨
      ∃ g ∈ guards, ¬ g.Admits s r ∧ ∃ events, protect s guards next r = some (forbidden events) := by
  induction guards with
  | nil => exact Or.inl ⟨by simp, rfl⟩
  | cons g guards ih =>
    simp only [protect, List.foldr_cons, List.forall_mem_cons, List.exists_mem_cons_iff] at ih ⊢
    rcases g.refuse?_cases s r with ⟨hadmits, hpass⟩ | ⟨hnot, events, hrefuse⟩
    · rw [hpass]
      exact ih.imp (fun h => ⟨⟨hadmits, h.1⟩, h.2⟩) Or.inr
    · rw [hrefuse]
      exact Or.inr (Or.inl ⟨hnot, events, rfl⟩)

theorem presents_iff {token : String} :
    r.Presents s token ↔ extractToken s r = token ∧ token ≠ "" := by
  unfold Request.Presents extractToken
  rw [and_comm]
  refine and_congr_left (fun hne => ?_)
  by_cases hlook : s.tokenSource ≠ .cookieOnly ∧ r.header "Authorization" ≠ ""
  · rw [if_pos hlook]
    cases cutPrefix (r.header "Authorization") "Bearer " with
    | none => simp [hlook.1, hlook.2, Ne.symm hne]
    | some rest => simp [hlook.1, hlook.2]
  · rw [if_neg hlook]
    have hopen : s.tokenSource = .cookieOnly ∨ r.header "Authorization" = "" := by
      by_contra h
      push Not at h
      exact hlook h
    rw [← and_assoc, or_iff_right (fun h => hlook h.1)]
    by_cases hbearer : s.tokenSource ≠ .bearerOnly
    · rw [if_pos hbearer]
      cases r.cookie? s.cookieName with
      | none => simp [Ne.symm hne]
      | some value => simp [hbearer, hopen]
    · rw [if_neg hbearer]
      exact iff_of_false (fun h => hbearer h.1) (Ne.symm hne)

/-- A request that comes as far as the validation has a token and is admitted so far. -/
theorem before_eq_none {chain : Chain} (h : chain.before s r = none) :
    (∀ g ∈ chain.outer, g.Admits s r) ∧ r.Presents s (extractToken s r) := by
  unfold Chain.before at h
  rcases protect_cases chain.outer s (authenticate s) r with ⟨hadmits, hpass⟩ | ⟨g, -, -, events, heq⟩
  · refine ⟨hadmits, presents_iff.mpr ⟨rfl, fun hempty => ?_⟩⟩
    rw [hpass, authenticate, if_pos hempty] at h
    cases h
  · cases heq.symm.trans h

/-! ## The theorem -/

section

variable [Platform] {chain : Chain} {c : Run s.toConfig}

/-- A request that reached the handler: every guard admits it, and its token is that of
    the session and the user. -/
structure Admitted (chain : Chain) (c : Run s.toConfig) (r : Request) (session : Session)
    (user : User) : Prop where
  guards : ∀ g ∈ chain.outer ++ chain.inner, g.Admits s r
  token : ∃ token i, r.Presents s token ∧ Authentic c.trace i token session user

/-- Why a request was refused, by the status it was answered with. -/
inductive Cause (chain : Chain) (c : Run s.toConfig) (r : Request) : Nat → Prop
  | guard (g : Guard) (hg : g ∈ chain.outer ++ chain.inner) (hnot : ¬ g.Admits s r) :
      Cause chain c r 403
  | noToken (hnone : ∀ token, ¬ r.Presents s token) : Cause chain c r 401
  | invalid (token : String) (i : Nat) (err : Err) (htoken : r.Presents s token)
      (hret : c.Returned i (.validateSession token) (.error err)) : Cause chain c r 401

/-- A refusal is not to be cached, and its status says why it was made. -/
structure Refused (chain : Chain) (c : Run s.toConfig) (r : Request) (x : Refusal) : Prop where
  uncached : ("Cache-Control", "no-store") ∈ x.response.headers
  cause : Cause chain c r x.response.status

def Explained (chain : Chain) (c : Run s.toConfig) (r : Request) : Exchange → Prop
  | .reached session user => Admitted chain c r session user
  | .refused x => Refused chain c r x

theorem refused_forbidden {events : List Rejection} {g : Guard} (hg : g ∈ chain.outer ++ chain.inner)
    (hnot : ¬ g.Admits s r) : Refused chain c r (forbidden events) where
  uncached := by simp [forbidden, httpError]
  cause := .guard g hg hnot

theorem refused_unauthorized (hcause : Cause chain c r 401) : Refused chain c r unauthorized where
  uncached := by simp [unauthorized, httpError]
  cause := hcause

/-- A refusal before the session is looked at. -/
theorem refused_early {x : Refusal} (h : chain.before s r = some x) : Refused chain c r x := by
  unfold Chain.before at h
  rcases protect_cases chain.outer s (authenticate s) r with ⟨-, hpass⟩ | ⟨g, hg, hnot, events, heq⟩
  · rw [hpass, authenticate, Option.ite_none_right_eq_some] at h
    obtain ⟨hempty, heq⟩ := h
    cases heq
    refine refused_unauthorized (.noToken (fun token hpresents => ?_))
    obtain ⟨htoken, hne⟩ := presents_iff.mp hpresents
    exact hne (htoken.symm.trans hempty)
  · cases heq.symm.trans h
    exact refused_forbidden (List.mem_append_left chain.inner hg) hnot

/-- Whatever runs beside it, a request reaches the handler only if every guard admits it and
    its token is that of a live session of the user, and else it is refused for a reason. -/
theorem requests_admitted_or_refused (chain : Chain)
    (hinj : Function.Injective Platform.sha256Hex) {as : List (system s.toConfig).Action}
    (hrun : (Run.empty s.toConfig).run as = some c) :
    ∀ r out, Handled s chain c r out → Explained chain c r out := by
  intro r _ h
  cases h with
  | early hbefore => exact refused_early hbefore
  | @validated i out hbefore hret =>
    obtain ⟨houter, hpresents⟩ := before_eq_none hbefore
    cases out with
    | error err => exact refused_unauthorized (.invalid _ i err hpresents hret)
    | ok x =>
      obtain ⟨session, user⟩ := x
      simp only [Chain.after]
      rcases protect_cases chain.inner s (fun _ => none) r with
        ⟨hinner, hpass⟩ | ⟨g, hg, hnot, events, heq⟩
      · rw [hpass]
        refine ⟨fun g hg => ?_, _, i, hpresents, validated_authentic hinj hrun hret⟩
        exact (List.mem_append.mp hg).elim (houter g) (hinner g)
      · rw [heq]
        exact refused_forbidden (List.mem_append_right chain.outer hg) hnot

end

/-! ## Two posts -/

section

open Scenario

attribute [local instance] plain

def webSettings : WebSettings := { toConfig := config }

/-- Both guards outside of `Authenticate`. -/
def guarded : Chain where
  outer := [.sameOrigin true ["https://app.example.com"], .csrfToken true]
  inner := []

/-- A form posted by the application itself. -/
def ownPost : Request where
  method := "POST"
  headers := [("sec-fetch-site", "same-origin")]
  cookies := [("__Host-session", raw 4), ("__Host-csrf_token", "t")]
  form := [("csrf_token", "t")]

/-- The same form, posted by some other page. -/
def forgedPost : Request :=
  { ownPost with headers := [("sec-fetch-site", "cross-site"), ("origin", "https://other")] }

/-- The account, and the validation of its session for the form. -/
def postingAccount : List (Call × Nat) := [(.register "a" [1] {}, 8), (.validateSession (raw 4), 4)]

theorem requests_admitted_or_refused_twoPosts :
    ∃ (c : Run webSettings.toConfig) (session : Session) (user : User) (x : Refusal),
      play postingAccount = some c ∧
      Handled webSettings guarded c ownPost (.reached session user) ∧
      Admitted guarded c ownPost session user ∧
      Handled webSettings guarded c forgedPost (.refused x) ∧ Refused guarded c forgedPost x := by
  obtain ⟨c, hplay, hdone⟩ := computed (o := play postingAccount)
    (P := fun c => succeeded c 1 (.validateSession (raw 4)) = true) (by decide +kernel)
  obtain ⟨as, hrun⟩ := Config.runBlocks_run hplay
  obtain ⟨⟨session, user⟩, hret⟩ := succeeded_returned hdone
  have hexplained := requests_admitted_or_refused (s := webSettings) guarded (fun _ _ h => h) hrun
  rw [show raw 4 = extractToken webSettings ownPost by decide +kernel] at hret
  have hown : Handled webSettings guarded c ownPost (.reached session user) :=
    .validated (show guarded.before webSettings ownPost = none by decide +kernel) hret
  obtain ⟨x, hx⟩ := Option.isSome_iff_exists.mp
    (show (guarded.before webSettings forgedPost).isSome by decide +kernel)
  have hforged : Handled webSettings guarded c forgedPost (.refused x) := .early hx
  exact ⟨c, session, user, x, hplay, hown, hexplained _ _ hown, hforged, hexplained _ _ hforged⟩

end

end Sulis.Http
