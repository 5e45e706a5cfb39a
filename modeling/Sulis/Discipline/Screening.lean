-- SUMMARY: The operations anybody may call ask the limiter first, and what they answer depends on little else.
import Sulis.Discipline.System
import Sulis.Interaction.Settle

/-!
# Screening by the limiter

`VerifyPassword`, `Login`, `CreatePasswordResetToken` and `CreateMagicLinkToken`
take an address from anybody. Each of them normalizes the address, asks the
limiter about the client and then about the account, stops at the first refusal,
and only then looks for a user.
-/

namespace Sulis

open Interaction Interaction.Prog Interaction.System

/-! ## Questions to the limiter -/

/-- The questions an operation has put to the limiter, most recent first, with
    their answers. -/
def asks : Hist → List (String × Except Err Unit)
  | [] => []
  | ⟨.allow key, r⟩ :: h => (key, r) :: asks h
  | _ :: h => asks h

def Op.NotAllow : Op → Prop
  | .allow _ => False
  | _ => True

theorem asks_cons {ev : Interaction.Event iface} (hev : Op.NotAllow ev.1) (h : Hist) :
    asks (ev :: h) = asks h := by
  obtain ⟨op, r⟩ := ev
  cases op with
  | allow key => exact hev.elim
  | _ => rfl

theorem asks_grows {h h' : Hist} (hg : Grows (S := iface) Op.NotAllow h h') : asks h' = asks h := by
  obtain ⟨new, rfl, hnew⟩ := hg
  induction new with
  | nil => rfl
  | cons ev new ih =>
    rw [List.cons_append, asks_cons (hnew ev List.mem_cons_self)]
    exact ih (fun ev' hev' => hnew ev' (List.mem_cons_of_mem _ hev'))

/-- What the limiter is asked about a call: the client first, if it is known. -/
def limiterKeys (cfg : Config) (scope email : String) (ri : RequestInfo) : List String :=
  if cfg.limiter then
    (if ri.ip = "" then [] else [scope ++ "ip:" ++ ri.ip]) ++ [scope ++ email]
  else []

def errorOf {α : Type} : Except Err α → Option Err
  | .ok _ => none
  | .error err => some err

/-- Every question was asked and let through, and the outcome is as `V` has it; or
    the last question asked was refused, and so was the call. -/
def Screened {α : Type} (keys : List String) (V : Option Err → Prop) (h : Hist)
    (r : Except Err α) : Prop :=
  (asks h = (keys.map (·, Except.ok ())).reverse ∧ V (errorOf r)) ∨
    ∃ let_ key rest err, keys = let_ ++ key :: rest ∧
      asks h = (key, .error err) :: (let_.map (·, Except.ok ())).reverse ∧
      errorOf r = some .rateLimited

/-- The scope under which the limiter knows an operation, and who calls it for whom. -/
def Call.screen? : Call → Option (String × String × RequestInfo)
  | .verifyPassword email _ ri => some ("password:", email, ri)
  | .login email _ ri => some ("password:", email, ri)
  | .createPasswordResetToken email ri => some ("reset:", email, ri)
  | .createMagicLinkToken email ri => some ("magic:", email, ri)
  | _ => none

/-- The password an operation is called with. -/
def Call.password? : Call → Option Bytes
  | .verifyPassword _ password _ => some password
  | .login _ password _ => some password
  | _ => none

namespace Service

variable {cfg : Config}

/-- The rules here are only about what the environment answers. -/
abbrev answering (G : (op : Op) → op.Res → Prop) : Discipline iface := ⟨G, fun _ _ => True⟩

variable {G : (op : Op) → op.Res → Prop}

/-- A call whose answer is handed on. -/
theorem settles_answer {op : Op} {α : Type} {k : op.Res → Except Err α} {P : Op → Prop}
    {V : Except Err α → Prop} (hop : P op) (hV : ∀ r, G op r → V (k r)) :
    (request (.call op (fun r => .ret (k r)))).run.Settles (S := iface) G P V :=
  settles_call hop (fun r hr => settles_ret (hV r hr))

/-- A program that always returns a value. -/
def Returns {α : Type} (r : Except Err α) : Prop := ∃ a, r = .ok a

theorem returns_ok {α : Type} (a : α) : Returns (.ok a) := ⟨a, rfl⟩

theorem settles_query (op : Op) {P : Op → Prop} (hop : P op) :
    (query (.call op .ret)).run.Settles (S := iface) G P Returns :=
  (settles_lift (V := fun _ => True) (settles_call hop (fun _ _ => settles_ret trivial))).mono
    (fun _ ⟨a, ha, _⟩ => ⟨a, ha⟩)

/-- After a program that always returns, nothing but what follows decides. -/
theorem settles_returns_bind {α β : Type} {P : Op → Prop} {W : Except Err β → Prop} {p : M α}
    {f : α → M β} (hp : p.run.Settles (S := iface) G P Returns)
    (hf : ∀ a, (f a).run.Settles (S := iface) G P W) :
    (p >>= f).run.Settles (S := iface) G P W := by
  refine settles_bind hp (fun a _ => hf a) (fun e he => ?_)
  obtain ⟨a, ha⟩ := he
  cases ha

theorem timeNow_settles : timeNow.run.Settles (S := iface) G Op.NotAllow Returns :=
  settles_query .now trivial

theorem newV7_settles : newV7.run.Settles (S := iface) G Op.NotAllow Returns :=
  settles_query .newV7 trivial

theorem randRead_settles {n : Nat} : (randRead n).run.Settles (S := iface) G Op.NotAllow Returns :=
  settles_query (.randRead n) trivial

theorem generateRawToken_settles {n : Nat} :
    (generateRawToken n).run.Settles (S := iface) G Op.NotAllow Returns :=
  settles_returns_bind randRead_settles (fun _ => settles_pure (returns_ok _))

theorem emit_settles {e : SecurityEvent} :
    (emit cfg e).run.Settles (S := iface) G Op.NotAllow Returns :=
  settles_ite (fun _ => settles_returns_bind timeNow_settles (fun _ => settles_query (.emit _) trivial))
    (fun _ => settles_pure (returns_ok _))

theorem emitLoginFailedVia_settles {uid : UUID} {ri : RequestInfo} {method : AuthMethod}
    {reason : String} :
    (emitLoginFailedVia cfg uid ri method reason).run.Settles (S := iface) G Op.NotAllow Returns :=
  settles_ite (fun _ => emit_settles) (fun _ => emit_settles)

theorem allow_results {key : String} {ri : RequestInfo} {h : Hist} (hlimiter : cfg.limiter = true) :
    Results (answering G) (allow cfg key ri) h
      (fun h' r => (r = .ok () ∧ asks h' = (key, .ok ()) :: asks h) ∨
        ∃ err, r = .error .rateLimited ∧ asks h' = (key, .error err) :: asks h) := by
  unfold allow
  rw [if_pos hlimiter]
  refine results_attempt_bind (R := fun h' r => h' = ⟨.allow key, r⟩ :: h)
    (results_call trivial (fun _ _ => results_ret rfl)) ?_
  rintro r _ rfl
  cases r with
  | ok x => exact results_ret (Or.inl ⟨rfl, rfl⟩)
  | error err =>
    have hrefuse {e : SecurityEvent} : (emit cfg e >>= fun _ => (throw .rateLimited : M Unit)).run.Settles
        (S := iface) G Op.NotAllow (fun r => r = .error .rateLimited) :=
      settles_returns_bind emit_settles (fun _ => settles_throw rfl)
    refine (hrefuse.results rfl (fun _ _ _ => trivial) _).mono (fun h' r hr => ?_)
    exact Or.inr ⟨err, hr.2, asks_grows hr.1⟩

/-- One question, and what follows if it is let through. -/
theorem allow_screens {α : Type} {p : M α} {keys rest : List String} {key : String}
    (let_ : List String) {ri : RequestInfo} {V : Option Err → Prop} {h : Hist} (hlimiter : cfg.limiter = true)
    (hkeys : keys = let_ ++ key :: rest) (hasks : asks h = (let_.map (·, Except.ok ())).reverse)
    (hp : ∀ h', asks h' = ((let_ ++ [key]).map (·, Except.ok ())).reverse →
      Results (answering G) p h' (Screened keys V)) :
    Results (answering G) (allow cfg key ri >>= fun _ => p) h (Screened keys V) := by
  refine results_bind (allow_results hlimiter) ?_ ?_
  · rintro _ h' (⟨-, hh'⟩ | ⟨err, hr, -⟩)
    · exact hp h' (by rw [hh', hasks]; simp)
    · cases hr
  · rintro e h' (⟨hr, -⟩ | ⟨err, hr, hh'⟩)
    · cases hr
    · cases hr
      exact Or.inr ⟨let_, key, rest, err, hkeys, by rw [hh', hasks], rfl⟩

/-- Both questions, and what follows if they are let through. -/
theorem allowBoth_screens {α : Type} {p : M α} {scope email : String} {ri : RequestInfo}
    {V : Option Err → Prop} {h : Hist} (hasks : asks h = [])
    (hp : p.run.Settles (S := iface) G Op.NotAllow (fun r => V (errorOf r))) :
    Results (answering G)
      (allowIP cfg scope ri >>= fun _ => allow cfg (scope ++ email) ri >>= fun _ => p) h
      (Screened (limiterKeys cfg scope email ri) V) := by
  -- Once every question was let through, the rest asks no more.
  have last {keys : List String} {h' : Hist}
      (hh' : asks h' = (keys.map (·, Except.ok ())).reverse) :
      Results (answering G) p h' (Screened keys V) := by
    refine (hp.results rfl (fun _ _ _ => trivial) h').mono (fun h'' r hr => Or.inl ⟨?_, hr.2⟩)
    rw [asks_grows hr.1, hh']
  unfold limiterKeys allowIP
  by_cases hlimiter : cfg.limiter = true
  · by_cases hip : ri.ip = ""
    · rw [if_pos hlimiter, if_pos hip, if_pos hip]
      exact allow_screens [] hlimiter rfl hasks (fun h' hh' => last hh')
    · rw [if_pos hlimiter, if_neg hip, if_neg hip]
      refine allow_screens [] hlimiter rfl hasks (fun h' hh' => ?_)
      exact allow_screens [_] hlimiter rfl hh' (fun h'' hh'' => last hh'')
  · have hoff {key : String} : allow cfg key ri = pure () := if_neg hlimiter
    rw [if_neg hlimiter, hoff, hoff, ite_self]
    exact last hasks

variable [Platform]

/-- What the limiter is asked about a call, if its address can be normalized. -/
def screenKeys (cfg : Config) (scope email : String) (ri : RequestInfo) : List String :=
  match normalizeEmail email with
  | .ok address => limiterKeys cfg scope address ri
  | .error _ => []

/-- The common beginning of the four operations. -/
theorem screened {α : Type} {rest : String → M α} {scope email : String} {ri : RequestInfo}
    {V : Option Err → Prop} (hinvalid : ∀ err, normalizeEmail email = .error err → V (some err))
    (hrest : ∀ address, normalizeEmail email = .ok address →
      (rest address).run.Settles (S := iface) G Op.NotAllow (fun r => V (errorOf r))) :
    Results (answering G)
      (liftExcept (normalizeEmail email) >>= fun address => allowIP cfg scope ri >>= fun _ =>
        allow cfg (scope ++ address) ri >>= fun _ => rest address) []
      (Screened (screenKeys cfg scope email ri) V) := by
  unfold screenKeys
  refine results_bind (R := fun h' r => h' = [] ∧ r = normalizeEmail email)
    (results_ret ⟨rfl, rfl⟩) ?_ ?_
  · rintro address _ ⟨rfl, hr⟩
    rw [← hr]
    exact allowBoth_screens rfl (hrest address hr.symm)
  · rintro err _ ⟨rfl, hr⟩
    rw [← hr]
    exact Or.inl ⟨rfl, hinvalid err hr.symm⟩

end Service

/-- What the limiter is asked about a call. -/
def Call.keys [Platform] (cfg : Config) (call : Call) : List String :=
  match call.screen? with
  | none => []
  | some (scope, email, ri) => Service.screenKeys cfg scope email ri

end Sulis
