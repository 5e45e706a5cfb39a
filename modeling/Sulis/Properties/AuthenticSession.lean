-- SUMMARY: A token is only accepted if the library made it, for the user it then stands for, and the session still lives.
import Sulis.Discipline.Revocation
import Sulis.Facts.Credentials

/-!
# Authentic sessions

`ValidateSession` returns a session only after it has read the row under the hash of
the token, then the clock, then the user of the row, in this order. So over a whole run
it accepts nothing but tokens that were drawn for a session stored in the run, and the
user it returns is the one the session was issued to.
-/

namespace Sulis

open Interaction Interaction.Prog Interaction.System

variable [Platform] {cfg : Config}

/-! ## One validation -/

/-- The calls behind a session that was found valid: the row is unexpired by the clock
    read after it, and the user it belongs to is not disabled. -/
structure Judged (token : String) (h : Hist) (s : Session) (u : User) (row : Session) (t : Time) :
    Prop where
  order : ∃ later, h = later ++ [⟨.getUserByID row.userID, .ok u⟩, ⟨.now, t⟩,
    ⟨.getSessionByTokenHash (hashSessionToken token), .ok row⟩]
  unexpired : t ≤ row.expiresAt
  active : ∀ deadline, row.idleExpiresAt = some deadline → t ≤ deadline
  enabled : u.disabledAt = none
  same : s.id = row.id ∧ s.userID = row.userID

namespace Service

/-- Nothing is asked of a part whose result does not matter. -/
theorem free_yields {α : Type} {p : M α} {h : Hist} : Yields (free cfg) p h (fun _ _ => True) :=
  .intro (along_trivial (fun _ _ => trivial) (fun _ _ _ _ => trivial) h)

theorem touch_judged {s : Session} {now : Time} {h : Hist} :
    Yields (free cfg) (touch cfg s now) h (fun _ s' => s'.id = s.id ∧ s'.userID = s.userID) := by
  refine yields_ite (fun _ => ?_) (fun _ => yields_pure ⟨rfl, rfl⟩)
  refine yields_bind free_yields (fun r h₁ _ _ => ?_)
  cases r with
  | ok x => exact yields_pure ⟨rfl, rfl⟩
  | error err => exact yields_pure ⟨rfl, rfl⟩

theorem validateSession_judged (token : String) :
    Yields (free cfg) (validateSession cfg token) []
      (fun h x => ∃ row t, Judged token h x.1 x.2 row t) := by
  have hend {kind : EventKind} {s : Session} {reason : String} {α : Type} {Q : Hist → α → Prop}
      {h : Hist} :
      Yields (free cfg) (endSession cfg kind s reason) h Q :=
    yields_bind free_yields (fun _ _ _ _ => yields_bind free_yields (fun _ _ _ _ => yields_throw))
  refine yields_bind (yields_request (free cfg) (.getSessionByTokenHash _) (fun r => r) trivial) ?_
  rintro row h₁ - ⟨r, rfl, rfl⟩
  refine yields_bind (yields_query (free cfg) .now trivial) ?_
  rintro t h₂ - rfl
  refine yields_ite (fun _ => hend) (fun hidle => yields_ite (fun _ => hend) (fun hold => ?_))
  refine yields_bind (yields_request (free cfg) (.getUserByID _) (fun r => r) trivial) ?_
  rintro u h₃ - ⟨r, rfl, rfl⟩
  refine yields_bind (yields_query (free cfg) (.status u) trivial) ?_
  rintro _ h₄ - rfl
  refine yields_ite (fun _ => yields_throw) (fun henabled => ?_)
  refine yields_bind touch_judged (fun s h₅ hs₅ hsame => yields_pure ?_)
  obtain ⟨later, rfl⟩ := hs₅
  refine ⟨row, t, ⟨later ++ [⟨.status u, ()⟩], by simp⟩, Int.not_lt.mp hold, ?_,
    not_not.mp henabled, hsame⟩
  intro deadline hdeadline
  rw [hdeadline] at hidle
  simpa using hidle

end Service

/-- What a validation says about its history when it succeeds. -/
def Judges : (c : Call) → Hist → c.Ret → Prop
  | .validateSession token, h, (s, u) => ∃ row t, Judged token h s u row t
  | _, _, _ => True

theorem run_judged {w₀ : World} {as : List (system cfg).Action} {c : Run cfg}
    (h : (Config.start w₀).run as = some c) {i : Nat} {token : String} {s : Session} {u : User}
    (hret : c.Returned i (.validateSession token) (.ok (s, u))) :
    ∃ row t, Judged token (history i c.trace) s u row t := by
  have hsound : c.Sound (fun _ _ _ => True) (fun (call : Call) h (out : Except Err call.Ret) =>
      ∀ a, out = .ok a → Judges call h a) w₀ := by
    refine Config.sound_start.run (fun call => ?_) h
    cases call with
    | validateSession token => exact (Service.validateSession_judged token).along
    | _ => exact along_trivial (fun _ _ => trivial) (fun _ _ _ _ => trivial) []
  exact hsound.returned hret (s, u) rfl

/-! ## Whole runs -/

/-- A session was stored under the hash of the token, for the user, by an operation that had
    drawn the token. -/
def IssuedAs (trace : List (Entry cfg)) (token : String) (id uid : UUID) : Prop :=
  ∃ (later past : List (Entry cfg)) (g : Entry cfg) (s₀ : Session) (bytes : Bytes),
    trace = later ++ g :: past ∧ g.op = .createSession s₀ ∧ s₀.id = id ∧ s₀.userID = uid ∧
    s₀.tokenHash = hashSessionToken token ∧ token = hexEncodeToString bytes ∧
    Did (history g.tid past) (.randRead cfg.sessionTokenBytes) bytes

/-- Operation `i` found the token to stand for the session and the user, and rightly so. -/
structure Authentic (trace : List (Entry cfg)) (i : Nat) (token : String) (s : Session) (u : User) :
    Prop where
  /-- Its first call found the row of the token, which had been issued to the user, and it
      judged this row by the clock it read next. -/
  found : ∃ (later past : List (Entry cfg)) (q : Entry cfg) (row : Session) (t : Time),
    trace = later ++ q :: past ∧ q.tid = i ∧ history i past = [] ∧
    q.event = ⟨.getSessionByTokenHash (hashSessionToken token), .ok row⟩ ∧
    row ∈ q.pre.sessions ∧ row.tokenHash = hashSessionToken token ∧
    IssuedAs past token row.id u.id ∧ Judged token (history i trace) s u row t
  stored : ∃ k ∈ trace, k.tid = i ∧ k.event = ⟨.getUserByID s.userID, .ok u⟩ ∧ u ∈ k.pre.users
  owner : s.userID = u.id

variable {trace : List (Entry cfg)} {w : World}

/-- A stored session that is found by a token was stored with it. -/
theorem session_token (hinj : Function.Injective Platform.sha256Hex) (hv : Trace cfg {} trace w)
    {row : Session} (hrow : row ∈ w.sessions) {token : String}
    (hhash : row.tokenHash = hashSessionToken token) : IssuedAs trace token row.id row.userID := by
  obtain ⟨later, g, past, s₀, rfl, hop, hsame⟩ := session_issued hv hrow
  obtain ⟨⟨now, bytes, h₀, hh, htoken⟩, -⟩ := createSession_spec hv rfl hop
  have hstored : s₀.tokenHash = hashSessionToken token := hsame.tokenHash.symm.trans hhash
  have hdraw : Did (history g.tid past) (.randRead cfg.sessionTokenBytes) bytes := by
    rw [hh]
    simp [Did]
  exact ⟨later, past, g, s₀, bytes, rfl, hop, hsame.id.symm, hsame.userID.symm, hstored,
    hinj (hstored.symm.trans htoken), hdraw⟩

theorem validated_authentic (hinj : Function.Injective Platform.sha256Hex)
    {as : List (system cfg).Action} {c : Run cfg} (hrun : (Run.empty cfg).run as = some c) {i : Nat}
    {token : String} {s : Session} {u : User}
    (hret : c.Returned i (.validateSession token) (.ok (s, u))) :
    Authentic c.trace i token s u := by
  have hv := run_trace_valid hrun
  obtain ⟨row, t, hjudged⟩ := run_judged hrun hret
  obtain ⟨rest, hh⟩ := hjudged.order
  have hsplit : history i c.trace = (rest ++ [⟨.getUserByID row.userID, .ok u⟩, ⟨.now, t⟩]) ++
      ⟨.getSessionByTokenHash (hashSessionToken token), .ok row⟩ :: [] := by rw [hh]; simp
  obtain ⟨later, q, past, htrace, htid, hev, -, hfirst⟩ := history_split hsplit
  obtain ⟨hrow, hhash⟩ := World.serve_getSessionByTokenHash
    (Valid.served hv (show q ∈ c.trace by rw [htrace]; simp) hev)
  have hread : Did (history i c.trace) (.getUserByID row.userID) (.ok u) := by
    rw [hh]; simp [Did]
  obtain ⟨k, hk, htid', hev'⟩ := mem_history.mp hread
  obtain ⟨huser, hid, -⟩ := World.serve_getUserByID (Valid.served hv hk hev')
  have hissued := session_token hinj (Valid.entry (htrace ▸ hv)).1 hrow hhash
  rw [← hid] at hissued
  rw [← hjudged.same.2] at hev'
  exact
    { found := ⟨later, past, q, row, t, htrace, htid, hfirst, hev, hrow, hhash, hissued, hjudged⟩
      stored := ⟨k, hk, htid', hev', huser⟩
      owner := hjudged.same.2.trans hid.symm }

end Sulis
