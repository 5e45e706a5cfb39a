-- SUMMARY: When a host can and cannot use up another host's calls through the default limiter.
import Mathlib.Data.Int.ConditionallyCompleteOrder
import Sulis.Discipline.Calm
import Sulis.Facts.Buckets
import Sulis.Facts.Limiting
import Sulis.Properties.Scenario

/-!
# Lockout through the limiter

The default limiter has a bucket for each client and one for each account. The
bucket of an account is the smaller one, and every client draws from it. So one host
can use up the calls for an account, and whoever owns it is refused. Only an account
that was not asked for too often stays reachable.
-/

namespace Sulis

open Interaction Interaction.System World

section

variable [Platform] {cfg : Config}

/-- Nobody but the limiter reports `ErrRateLimited`. -/
def CalmTrace (trace : List (Entry cfg)) : Prop :=
  ∀ e ∈ trace, (∀ f, e.choice.fault = some f → f.err.is .rateLimited = false) ∧
    Tame e.choice.factor

/-- Everything a list of calls can ask the limiter, the `i`-th of them at `times i`. -/
def questions (cfg : Config) (times : Nat → Time) (calls : List Call) : List (String × Time) :=
  calls.zipIdx.flatMap (fun x => (x.1.keys cfg).map (·, times x.2))

/-- What a trace has asked the limiter, most recent first. -/
def asked (times : Nat → Time) : List (Entry cfg) → List (String × Time)
  | [] => []
  | e :: past =>
    match e.op with
    | .allow key => (key, times e.tid) :: asked times past
    | _ => asked times past

/-! ## Answers -/

omit [Platform] in
private theorem store_tame {α : Type} {w w' : World} {ch : Choice} {r : Except Err α × World}
    {x : Except Err α} (hf : ∀ f, ch.fault = some f → f.err.is .rateLimited = false)
    (h : w.store ch r = some (x, w')) (hr : Tame r.1) : Tame x := by
  rcases store_cases h with ⟨-, heq⟩ | ⟨f, hsome, hx, -⟩
  · rw [heq] at hr
    exact hr
  · rw [hx]
    exact tame_error (hf f hsome)

omit [Platform] in
theorem serve_calm {w w' : World} {ch : Choice} {op : Op} {r : op.Res}
    (hf : ∀ f, ch.fault = some f → f.err.is .rateLimited = false) (hfactor : Tame ch.factor)
    (h : w.serve op ch = some (r, w')) : Calm op r := by
  cases op with
  | getUserByID id =>
    refine store_tame hf h (fun err herr => ?_)
    rw [UserStore.getUserByID_error herr]
    rfl
  | getUserByEmail email =>
    refine store_tame hf h (fun err herr => ?_)
    rw [UserStore.getUserByEmail_error herr]
    rfl
  | updateUser u =>
    refine store_tame hf h (fun err herr => ?_)
    rcases UserStore.updateUser_error herr with rfl | rfl | ⟨rfl, -⟩
    · rfl
    · rfl
    · rfl
  | createSession s => exact store_tame hf h tame_ok
  | createToken t => exact store_tame hf h tame_ok
  | hasSecondFactor uid =>
    simp only [World.serve, Option.some.injEq, Prod.mk.injEq] at h
    rw [← h.1]
    exact hfactor
  | _ => trivial

/-! ## Questions -/

variable {times : Nat → Time} {choices : Nat → LimiterChoice}

theorem asked_append (later past : List (Entry cfg)) :
    asked times (later ++ past) = asked times later ++ asked times past := by
  induction later with
  | nil => rfl
  | cons e later ih =>
    simp only [List.cons_append, asked]
    split
    · rw [ih, List.cons_append]
    · exact ih

/-- The questions of one operation, all asked at its time. -/
theorem asked_own {own : List (Entry cfg)} {i : Nat} (hown : ∀ e ∈ own, e.tid = i) :
    asked times own = (asks (own.map Entry.event)).map (fun q => (q.1, times i)) := by
  induction own with
  | nil => rfl
  | cons e own ih =>
    have hrest := ih (fun e' he' => hown e' (List.mem_cons_of_mem _ he'))
    have htid := hown e List.mem_cons_self
    obtain ⟨tid, call, op, ch, r, pre, post⟩ := e
    cases op with
    | allow key =>
      cases htid
      exact congrArg (List.cons _) hrest
    | _ => exact hrest

omit [Platform] in
/-- An operation asks no more than its keys. -/
theorem Screened.subperm {α : Type} {keys : List String} {V : Option Err → Prop} {h : Hist}
    {r : Except Err α} (hs : Screened keys V h r) : List.Subperm ((asks h).map Prod.fst) keys := by
  have all (ks : List String) :
      ((ks.map (·, (Except.ok () : Except Err Unit))).reverse).map Prod.fst = ks.reverse := by
    simp [List.map_reverse, Function.comp_def]
  rcases hs with ⟨hasks, -⟩ | ⟨let_, key, rest, err, rfl, hasks, -⟩
  · rw [hasks, all]
    exact (List.reverse_perm keys).subperm
  · rw [hasks, List.map_cons, all]
    have hshorter : List.Subperm (let_ ++ [key]) (let_ ++ key :: rest) := by
      rw [show let_ ++ key :: rest = (let_ ++ [key]) ++ rest by simp]
      exact (List.sublist_append_left _ _).subperm
    refine (List.Perm.subperm ?_).trans hshorter
    exact (List.Perm.cons _ (List.reverse_perm let_)).trans (List.perm_append_singleton _ _).symm

/-- Under the default limiter every bucket keeps its reserve. -/
theorem after_reserved {trace : List (Entry cfg)} {now : Time}
    (hsorted : trace.Pairwise (fun newer older => times older.tid ≤ times newer.tid))
    (hnow : ∀ e ∈ trace, times e.tid ≤ now) :
    MemoryLimiter.Reserved .new
      ((MemoryLimiter.toLimiter choices).after times (.new, 0) trace).1 (asked times trace) now := by
  induction trace generalizing now with
  | nil => exact MemoryLimiter.reserved_start (fun bkt => Store.Table.not_mem_empty bkt)
  | cons e past ih =>
    obtain ⟨hlast, hrest⟩ := List.pairwise_cons.mp hsorted
    have hpast := ih hrest hlast
    refine MemoryLimiter.Reserved.later ?_ (hnow e List.mem_cons_self)
    obtain ⟨tid, call, op, ch, r, pre, post⟩ := e
    cases op with
    | allow key => exact (hpast.allow MemoryLimiter.new_positive le_rfl key _).1
    | _ => exact hpast

/-- Keys that can be asked about one after the other. -/
def AmpleAll (now : Time) : List (String × Time) → List String → Prop
  | _, [] => True
  | qs, key :: keys => MemoryLimiter.new.Ample qs key now ∧ AmpleAll now ((key, now) :: qs) keys

omit [Platform] in
theorem screen_of_ample {s : (MemoryLimiter.toLimiter choices).State} {qs : List (String × Time)}
    {now : Time} {keys : List String} (hs : MemoryLimiter.Reserved .new s.1 qs now)
    (hample : AmpleAll now qs keys) :
    ((MemoryLimiter.toLimiter choices).screen now s keys).1 = true := by
  induction keys generalizing s qs with
  | nil => rfl
  | cons key keys ih =>
    obtain ⟨hkey, hkeys⟩ := hample
    obtain ⟨hs', hok⟩ := hs.allow MemoryLimiter.new_positive le_rfl key (choices s.2)
    have hallow : (MemoryLimiter.toLimiter choices).allow s key now =
        (.ok (), (s.1.allow key now (choices s.2)).2, s.2 + 1) := by
      rw [← hok hkey]
      rfl
    rw [Limiter.screen_ok hallow]
    exact ih hs' hkeys

/-! ## Keys -/

/-- The scopes of the four operations. -/
def scopes : List String := ["password:", "reset:", "magic:"]

omit [Platform] in
theorem screen?_scope {call : Call} {x : String × String × RequestInfo}
    (h : call.screen? = some x) : x.1 ∈ scopes := by
  cases call with
  | verifyPassword | login | createPasswordResetToken | createMagicLinkToken =>
    cases h
    simp [scopes]
  | _ => cases h

omit [Platform] in
/-- Keys of different scopes differ. -/
theorem scope_append_inj {scope scope' s s' : String} (h : scope ∈ scopes) (h' : scope' ∈ scopes)
    (heq : scope ++ s = scope' ++ s') : scope = scope' ∧ s = s' := by
  have hsame : scope = scope' := by
    have hhead := congrArg (fun x : String => x.toList.head?) heq
    simp only [scopes, List.mem_cons, List.not_mem_nil, or_false] at h h'
    rcases h with rfl | rfl | rfl <;> rcases h' with rfl | rfl | rfl <;>
      first | rfl | (simp at hhead)
  subst hsame
  exact ⟨rfl, String.append_right_inj scope |>.mp heq⟩

/-- The account a call is about: its scope and its address. -/
def Call.account? (call : Call) : Option (String × String) :=
  call.screen?.bind (fun x => (normalizeEmail x.2.1).toOption.map (fun address => (x.1, address)))

/-- The client a call comes from. -/
def Call.client? (call : Call) : Option String := call.screen?.map (fun x => x.2.2.ip)

/-- The keys of a call are that of its client and that of its account. -/
theorem Call.mem_keys {call : Call} {key : String} (h : key ∈ call.keys cfg) :
    ∃ scope ∈ scopes, ∃ address, call.account? = some (scope, address) ∧
      (key = scope ++ address ∨
        ∃ ip, call.client? = some ip ∧ ip ≠ "" ∧ key = scope ++ ("ip:" ++ ip)) := by
  unfold Call.keys at h
  cases hs : call.screen? with
  | none => rw [hs] at h; cases h
  | some x =>
    obtain ⟨scope, email, ri⟩ := x
    rw [hs] at h
    simp only [Service.screenKeys] at h
    cases hn : normalizeEmail email with
    | error err => rw [hn] at h; cases h
    | ok address =>
      have haccount : call.account? = some (scope, address) := by
        simp [Call.account?, hs, hn, Except.toOption]
      refine ⟨scope, screen?_scope hs, address, haccount, ?_⟩
      simp only [hn, limiterKeys] at h
      split at h
      · rcases List.mem_append.mp h with h | h
        · split at h
          · cases h
          · rename_i hip
            refine Or.inr ⟨ri.ip, by simp [Call.client?, hs], hip, ?_⟩
            rw [List.mem_singleton.mp h, String.append_assoc]
        · exact Or.inl (List.mem_singleton.mp h)
      · cases h

/-- What is asked about a call from a known client. -/
theorem Call.keys_cases {call : Call} {b : String} (hb : call.client? = some b) (hne : b ≠ "") :
    call.keys cfg = [] ∨ ∃ scope ∈ scopes, ∃ address, call.account? = some (scope, address) ∧
      call.keys cfg = [scope ++ ("ip:" ++ b), scope ++ address] := by
  obtain ⟨⟨scope, email, ri⟩, hs, rfl⟩ := Option.map_eq_some_iff.mp hb
  cases hn : normalizeEmail email with
  | error err => exact Or.inl (by simp [Call.keys, hs, Service.screenKeys, hn])
  | ok address =>
    by_cases hlimiter : cfg.limiter = true
    · refine Or.inr ⟨scope, screen?_scope hs, address, ?_, ?_⟩
      · simp [Call.account?, hs, hn, Except.toOption]
      · simp only [Call.keys, hs, Service.screenKeys, hn, limiterKeys, if_pos hlimiter, if_neg hne,
          String.append_assoc, List.cons_append, List.nil_append]
    · exact Or.inl (by simp [Call.keys, hs, Service.screenKeys, hn, limiterKeys, hlimiter])

/-! ## Who is refused -/

/-- The account of a call was not asked for too often by the calls before it, and none
    of them was for an address that reads like its client. -/
structure Spared (cfg : Config) (times : Nat → Time) (earlier : List Call) (call : Call) : Prop where
  account : ∀ scope address, call.account? = some (scope, address) →
    MemoryLimiter.new.Ample (questions cfg times earlier) (scope ++ address) (times earlier.length)
  client : ∀ scope ip, call.client? = some ip →
    ∀ call' ∈ earlier, call'.account? ≠ some (scope, "ip:" ++ ip)

theorem mem_questions {calls : List Call} {key : String} {t : Time}
    (h : (key, t) ∈ questions cfg times calls) : ∃ call ∈ calls, key ∈ call.keys cfg := by
  obtain ⟨x, hx, hkey⟩ := List.mem_flatMap.mp h
  obtain ⟨k, hk, heq⟩ := List.mem_map.mp hkey
  cases heq
  exact ⟨x.1, List.fst_mem_of_mem_zipIdx hx, hk⟩

theorem questions_concat (calls : List Call) (call : Call) :
    questions cfg times (calls ++ [call]) =
      questions cfg times calls ++ (call.keys cfg).map (·, times calls.length) := by
  simp [questions, List.zipIdx_append]

section Visited

variable {w₀ : World} {bs : List (Call × List Choice)} {c : Run cfg}

theorem CalmTrace.calm (hp : Visited (MemoryLimiter.toLimiter choices) times (.new, 0) w₀ bs c)
    (hcalm : CalmTrace c.trace) : ∀ e ∈ c.trace, Calm e.op e.res := by
  obtain ⟨as, hrun⟩ := Config.runBlocks_run hp.run
  intro e he
  exact serve_calm (hcalm e he).1 (hcalm e he).2 ((run_trace_valid hrun).served he rfl)

/-- Before any call, no more was asked than the earlier calls can ask. -/
theorem Visited.asked_subperm
    (hp : Visited (MemoryLimiter.toLimiter choices) times (.new, 0) w₀ bs c)
    (hcalm : CalmTrace c.trace) (n : Nat) (hn : n ≤ bs.length) :
    List.Subperm (asked times (c.before n)) (questions cfg times ((bs.take n).map Prod.fst)) := by
  induction n with
  | zero => rw [Config.before_zero]; exact List.nil_subperm
  | succ n ih =>
    have hb := List.getElem?_eq_getElem (l := bs) hn
    obtain ⟨out, hret⟩ := hp.returned hb
    have hs := hp.screened (V := fun _ => NotLimited) (fun _ hcall => Service.program_passes hcall)
      (hcalm.calm hp) hb hret
    have hlen : ((bs.take n).map Prod.fst).length = n := by simp; omega
    rw [hp.sequential.before_succ, asked_append, asked_own (fun e he => Config.own_tid he),
      ← Config.history_own, List.take_succ_eq_append_getElem hn, List.map_append, List.map_singleton,
      questions_concat, hlen]
    refine List.perm_append_comm.subperm.trans (List.Subperm.append (ih (Nat.le_of_succ_le hn)) ?_)
    obtain ⟨ks, hperm, hsub⟩ := hs.subperm
    refine ⟨ks.map (·, times n), ?_, hsub.map _⟩
    have := hperm.map (·, times n)
    rwa [List.map_map] at this

end Visited

omit [Platform] in
theorem askedAt_subperm {qs qs' : List (String × Time)} (h : List.Subperm qs qs') (key : String) :
    List.Subperm (MemoryLimiter.askedAt qs key) (MemoryLimiter.askedAt qs' key) := by
  obtain ⟨l, hperm, hsub⟩ := h.filter (fun q => q.1 = key)
  exact ⟨l.map Prod.snd, hperm.map _, hsub.map _⟩

/-- A new client has asked nothing, and no call for an account reads like it. -/
theorem client_unasked {calls : List Call} {call : Call} {a b scope : String}
    {qs : List (String × Time)} (hsub : List.Subperm qs (questions cfg times calls))
    (ha : ∀ call' ∈ calls, call'.client? = some a) (hb : call.client? = some b) (hne : b ≠ a)
    (hspared : Spared cfg times calls call) (hscope : scope ∈ scopes) (t : Time) :
    (scope ++ ("ip:" ++ b), t) ∉ qs := by
  intro hmem
  obtain ⟨call', hcall', hkey⟩ := mem_questions (hsub.subset hmem)
  obtain ⟨scope', hscope', address, haccount, hk | ⟨ip, hip, -, hk⟩⟩ := Call.mem_keys hkey
  · obtain ⟨-, haddress⟩ := scope_append_inj hscope hscope' hk
    exact hspared.client scope' b hb call' hcall' (by rw [haccount, haddress])
  · obtain ⟨-, hclient⟩ := scope_append_inj hscope hscope' hk
    rw [ha call' hcall'] at hip
    exact hne ((String.append_right_inj "ip:").mp hclient |>.trans (Option.some.inj hip).symm)

theorem spared_ample {calls : List Call} {call : Call} {a b : String} {qs : List (String × Time)}
    (hsub : List.Subperm qs (questions cfg times calls))
    (ha : ∀ call' ∈ calls, call'.client? = some a) (hb : call.client? = some b)
    (hnonempty : b ≠ "") (hne : b ≠ a) (hspared : Spared cfg times calls call) :
    AmpleAll (times calls.length) qs (call.keys cfg) := by
  rcases Call.keys_cases hb hnonempty with hkeys | ⟨scope, hscope, address, haccount, hkeys⟩
  · rw [hkeys]
    trivial
  have hunasked := client_unasked hsub ha hb hne hspared hscope
  rw [hkeys]
  refine ⟨fun t ht => absurd (MemoryLimiter.mem_askedAt.mp ht) (hunasked t), ?_, trivial⟩
  by_cases hsame : scope ++ ("ip:" ++ b) = scope ++ address
  · -- The account reads like the client, so its only question is the one about it.
    intro t ht
    rw [← hsame, MemoryLimiter.askedAt_cons_self] at ht ⊢
    have hnil : MemoryLimiter.askedAt qs (scope ++ ("ip:" ++ b)) = [] :=
      List.eq_nil_iff_forall_not_mem.mpr (fun t ht => hunasked t (MemoryLimiter.mem_askedAt.mp ht))
    rw [hnil, List.mem_singleton] at ht
    have hburst : (5 : ℚ) ≤ (MemoryLimiter.new.budgetFor (scope ++ ("ip:" ++ b))).burst :=
      mod_cast (MemoryLimiter.new_budgetFor _).1
    rw [hnil, ht, Rate.elapsed_self, Rate.since_cons, if_pos le_rfl]
    norm_num [Rate.since]
    linarith
  · rw [MemoryLimiter.Ample, MemoryLimiter.askedAt_cons_of_ne hsame]
    exact (hspared.account scope address haccount).subperm (askedAt_subperm hsub _)

/-- One host leaves an account to the others as long as it does not ask for it too
    often: a call from a new client is not refused. -/
theorem account_left_to_others {w₀ : World} {earlier : List (Call × List Choice)}
    {last : Call × List Choice} {c : Run cfg} {a b : String}
    (hp : Visited (MemoryLimiter.toLimiter choices) times (.new, 0) w₀ (earlier ++ [last]) c)
    (hmono : Monotone times) (hcalm : CalmTrace c.trace)
    (ha : ∀ call ∈ earlier.map Prod.fst, call.client? = some a)
    (hb : last.1.client? = some b) (hnonempty : b ≠ "") (hne : b ≠ a)
    (hspared : Spared cfg times (earlier.map Prod.fst) last.1) :
    ∃ out : Except Err last.1.Ret, c.Returned earlier.length last.1 out ∧ Tame out := by
  have hlast : (earlier ++ [last])[earlier.length]? = some last := by simp
  obtain ⟨out, hret⟩ := hp.returned hlast
  have hs := hp.screened (V := fun _ => NotLimited) (fun _ hcall => Service.program_passes hcall)
    (hcalm.calm hp) hlast hret
  refine ⟨out, hret, ?_⟩
  have hsub := hp.asked_subperm hcalm earlier.length (by simp)
  rw [List.take_left] at hsub
  have hreserved : MemoryLimiter.Reserved .new
      ((MemoryLimiter.toLimiter choices).after times (.new, 0) (c.before earlier.length)).1
      (asked times (c.before earlier.length)) (times earlier.length) := by
    refine after_reserved ?_ (fun e he => hmono ?_)
    · exact (hp.sequential.sorted.filter _).imp (fun hle => hmono hle)
    · have hlt : e.tid < earlier.length := by simpa using (List.mem_filter.mp he).2
      exact hlt.le
  have hample := spared_ample hsub ha hb hnonempty hne hspared
  rw [List.length_map] at hample
  rcases hp.decided hs with ⟨-, hV⟩ | ⟨hrefused, -⟩
  · exact tame_iff.mpr hV
  · have hallowed := screen_of_ample hreserved hample
    rw [hrefused] at hallowed
    cases hallowed

end

section

open Scenario

attribute [local instance] plain

def throttled : Config := { config with limiter := true }

/-- As many logins for one account from one host, none of which finds a user. -/
def fromOneHost (n : Nat) : List (Call × List Choice) :=
  blocks 0 (List.replicate n (.login "v" [1] ⟨"1", ""⟩, 3))

/-- Then one from another host, which gets the given answers. -/
def thenAnother (chs : List Choice) : Call × List Choice := (.login "v" [1] ⟨"2", ""⟩, chs)

/-- What can be checked about such a run by running it. -/
def throttledTest (bs : List (Call × List Choice)) (c : Run throttled) : Bool :=
  bs.all (fun b => b.1.screen?.isSome) &&
    (MemoryLimiter.toLimiter (fun _ => {})).obeyed (fun _ => 0) (.new, 0) c.trace &&
    c.trace.all (fun e => e.choice.fault.isNone && e.choice.factor.toOption.isSome)

theorem throttledTest_visited {w₀ : World} {bs : List (Call × List Choice)} {c : Run throttled}
    (hrun : (Config.start w₀).runBlocks bs = some c) (h : throttledTest bs c = true) :
    Visited (MemoryLimiter.toLimiter (fun _ => {})) (fun _ => 0) (.new, 0) w₀ bs c ∧
      CalmTrace c.trace := by
  simp only [throttledTest, Bool.and_eq_true, List.all_eq_true] at h
  obtain ⟨⟨houtside, hobeyed⟩, hcalm⟩ := h
  refine ⟨⟨hrun, fun b hb hnone => ?_, Limiter.obeys_of_obeyed hobeyed⟩, fun e he => ?_⟩
  · have := houtside b hb
    rw [hnone] at this
    cases this
  · obtain ⟨hfault, hfactor⟩ := hcalm e he
    refine ⟨fun f hf => ?_, fun err herr => ?_⟩
    · rw [hf] at hfault
      cases hfault
    · rw [herr] at hfactor
      cases hfactor

/-- Ten logins from one host use up the account: the next host is refused. -/
theorem account_used_up :
    ∃ c : Run throttled,
      Visited (MemoryLimiter.toLimiter (fun _ => {})) (fun _ => 0) (.new, 0) {}
        (fromOneHost 10 ++ [thenAnother [tick 50, { tick 51 with refusal := some .rateLimited }]]) c ∧
      CalmTrace c.trace ∧ (∀ call ∈ (fromOneHost 10).map Prod.fst, call.client? = some "1") ∧
      (thenAnother []).1.client? = some "2" ∧
      c.Returned 10 (.login "v" [1] ⟨"2", ""⟩) (.error .rateLimited) := by
  obtain ⟨c, hrun, htest, hrefused⟩ := computed
    (o := (Config.start {} : Run throttled).runBlocks (fromOneHost 10 ++
      [thenAnother [tick 50, { tick 51 with refusal := some .rateLimited }]]))
    (P := fun c => throttledTest (fromOneHost 10 ++
        [thenAnother [tick 50, { tick 51 with refusal := some .rateLimited }]]) c = true ∧
      c.threads[10]?.bind (fun t => t.rest.value?.bind errorOf) = some .rateLimited)
    (by decide +kernel)
  obtain ⟨hvisited, hcalm⟩ := throttledTest_visited hrun htest
  refine ⟨c, hvisited, hcalm, by decide +kernel, rfl, ?_⟩
  obtain ⟨out, hret⟩ := hvisited.returned (i := 10) (b := thenAnother
    [tick 50, { tick 51 with refusal := some .rateLimited }]) rfl
  rw [hret] at hrefused
  cases out with
  | ok r => cases hrefused
  | error err =>
    cases hrefused
    exact hret

/-- Three logins do not. -/
theorem account_left_to_others_threeLogins :
    ∃ c : Run throttled, ∃ out,
      Visited (MemoryLimiter.toLimiter (fun _ => {})) (fun _ => 0) (.new, 0) {}
        (fromOneHost 3 ++ [thenAnother [tick 50, tick 51, tick 52]]) c ∧
      c.Returned 3 (.login "v" [1] ⟨"2", ""⟩) out ∧ Tame out := by
  obtain ⟨c, hrun, htest⟩ := computed
    (o := (Config.start {} : Run throttled).runBlocks (fromOneHost 3 ++
      [thenAnother [tick 50, tick 51, tick 52]]))
    (P := fun c => throttledTest (fromOneHost 3 ++ [thenAnother [tick 50, tick 51, tick 52]]) c = true)
    (by decide +kernel)
  obtain ⟨hvisited, hcalm⟩ := throttledTest_visited hrun htest
  have hspared : Spared throttled (fun _ => 0) ((fromOneHost 3).map Prod.fst)
      (.login "v" [1] ⟨"2", ""⟩) := by
    refine ⟨fun scope address haccount => ?_, fun scope ip hip => ?_⟩
    · cases haccount
      show ∀ t ∈ _, _ ≤ _
      decide +kernel
    · cases hip
      intro call hcall haccount
      have hscope : ∀ call ∈ (fromOneHost 3).map Prod.fst, call.account? = some ("password:", "v") := by
        decide +kernel
      rw [hscope call hcall] at haccount
      simp at haccount
  have hfirst : ∀ call ∈ (fromOneHost 3).map Prod.fst, call.client? = some "1" := by decide +kernel
  obtain ⟨out, hret, htame⟩ := account_left_to_others hvisited monotone_const hcalm hfirst
    (b := "2") rfl (by decide) (by decide) hspared
  exact ⟨c, out, hvisited, hret, htame⟩

end

end Sulis
