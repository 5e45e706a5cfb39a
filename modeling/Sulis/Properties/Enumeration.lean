-- SUMMARY: Without a matching password, the errors an outsider gets do not depend on which accounts exist.
import Sulis.Discipline.Uniform
import Sulis.Facts.Limiting
import Sulis.Properties.Recovery
import Sulis.Properties.Scenario

/-!
# No account enumeration

Two runs start from different user stores. They are asked the same things at the
same times, their limiter is the same, and no password that is tried is right.
Then they give the same errors: an address that is not registered cannot be told
from one that is, in whatever state its account may be.
-/

namespace Sulis

open Interaction Interaction.System World

section

variable [Platform] {cfg : Config} {w₀ w : World} {trace : List (Entry cfg)} {calls : List Call}

/-- The errors a run has returned, in the order of its operations. -/
def errors (c : Run cfg) : List (Option Err) := c.threads.map (fun t => t.rest.value?.bind errorOf)

/-- A user store that can be expected to give nothing away: every address is held
    once, every hash can be read, and no password that is tried matches one. -/
structure Unguessed (cfg : Config) (calls : List Call) (users : UserStore) : Prop where
  distinct : ∀ u ∈ users, ∀ v ∈ users, u.email = v.email → u.id = v.id
  decodes : ∀ u ∈ users, u.passwordHash ≠ "" → ∃ x, decodeHash u.passwordHash = .ok x
  differs : ∀ u ∈ users, ∀ call ∈ calls, ∀ password, call.password? = some password →
    ∀ legacy, verifyPassword password u.passwordHash cfg.pepper ≠ .ok (true, legacy)

/-! ## The accounts stay as they were -/

/-- Some initial row has the ID, the address and the password of this copy. -/
def FromStart (w₀ : World) (u : User) : Prop :=
  ∃ u₀ ∈ w₀.users, u₀.id = u.id ∧ u₀.email = u.email ∧ u₀.passwordHash = u.passwordHash

theorem Unguessed.mismatch {users : UserStore} (hu : Unguessed cfg calls users) {u : User}
    (hmem : u ∈ users) {call : Call} (hcall : call ∈ calls) {password : Bytes}
    (hpassword : call.password? = some password) : Mismatch cfg password u := by
  intro hhash
  obtain ⟨x, hx⟩ := hu.decodes u hmem hhash
  have hdiffers := hu.differs u hmem call hcall password hpassword
  cases hmatch : verifyPassword password u.passwordHash cfg.pepper with
  | error err =>
    rw [verifyPassword, hx] at hmatch
    simp only at hmatch
    split_ifs at hmatch
  | ok r =>
    obtain ⟨matched, legacy⟩ := r
    cases matched with
    | true => exact absurd hmatch (hdiffers legacy)
    | false => exact ⟨legacy, rfl⟩

theorem MayMutate.screened {call : Call} {h : Hist} {uid : UUID} {m : Mutation}
    (hmay : MayMutate cfg call h uid m) (hscreen : call.screen? ≠ none) :
    ∃ password, call.password? = some password ∧ MayUpkeep cfg password h uid m := by
  cases hmay with
  | login hm => exact ⟨_, rfl, hm⟩
  | verifyPassword hm => exact ⟨_, rfl, hm⟩
  | _ => exact absurd rfl hscreen

theorem MayUpkeep.cases {password : Bytes} {h : Hist} {uid : UUID} {m : Mutation}
    (hm : MayUpkeep cfg password h uid m) :
    (∃ u, Compared cfg h password u true) ∨ ∃ now, m = .recordFailedLogin now := by
  cases hm with
  | rehash hu => exact Or.inl ⟨_, hu⟩
  | recordFailedLogin hu => exact Or.inr ⟨_, rfl⟩
  | clearFailedLogins hu => exact Or.inl ⟨_, hu⟩

theorem MayCreate.unscreened {call : Call} {h : Hist} {u : User} (hmay : MayCreate cfg call h u) :
    call.screen? = none := by
  cases hmay with
  | register | redeem => rfl

/-- An operation of the four kinds keeps the account of a copy it changes. -/
theorem mutated_fromStart {call : Call} {h : Hist} {u u' : User} {m : Mutation}
    (hstart : Unguessed cfg calls w₀.users) (hcall : call ∈ calls) (hscreen : call.screen? ≠ none)
    (hread : ∀ u, Read h u → FromStart w₀ u) (hu : FromStart w₀ u)
    (hmay : MayMutate cfg call h u.id m) (happly : m.apply cfg u = .ok u') : FromStart w₀ u' := by
  obtain ⟨u₀, hu₀, hid, hemail, hhash⟩ := hu
  have hframe := Mutation.frame happly
  obtain ⟨password, hpassword, hm⟩ := hmay.screened hscreen
  rcases hm.cases with ⟨v, hr, legacy, hmatch⟩ | ⟨now, rfl⟩
  · -- The password would have to match a hash of the initial store.
    obtain ⟨v₀, hv₀, -, -, hhash₀⟩ := hread v hr
    rw [← hhash₀] at hmatch
    exact absurd hmatch (hstart.differs v₀ hv₀ call hcall password hpassword legacy)
  · exact ⟨u₀, hu₀, hid.trans hframe.id.symm, hemail.trans (hframe.email (by simp)).symm,
      hhash.trans (hframe.password (by simp) (by simp)).symm⟩

theorem read_fromStart (hv : Trace cfg w₀ trace w)
    (hpre : ∀ e ∈ trace, ∀ u ∈ e.pre.users, FromStart w₀ u) {i : Nat} {u : User}
    (hr : Read (history i trace) u) : FromStart w₀ u := by
  rcases hr with hr | hr
  · obtain ⟨k, hk, -, hev⟩ := mem_history.mp hr
    exact hpre k hk u (serve_getUserByID (hv.served hk hev)).1
  · obtain ⟨k, hk, -, hev⟩ := mem_history.mp hr
    exact hpre k hk u (serve_getUserByEmail (hv.served hk hev)).1

/-- The rows of a run of the four operations keep their accounts. -/
theorem users_fromStart (hv : Trace cfg w₀ trace w) (hstart : Unguessed cfg calls w₀.users)
    (hcalls : ∀ e ∈ trace, e.call ∈ calls ∧ e.call.screen? ≠ none) :
    (∀ e ∈ trace, ∀ u ∈ e.pre.users, FromStart w₀ u) ∧ ∀ u ∈ w.users, FromStart w₀ u := by
  induction hv with
  | nil => exact ⟨fun e he => (List.not_mem_nil he).elim, fun u hu => ⟨u, hu, rfl, rfl, rfl⟩⟩
  | cons e past hpast hserve hallow _ ih =>
    obtain ⟨hpre, hnow⟩ := ih (fun e' he' => hcalls e' (List.mem_cons_of_mem _ he'))
    obtain ⟨hcall, hscreen⟩ := hcalls e List.mem_cons_self
    refine ⟨fun e' he' => ?_, fun u hu => ?_⟩
    · rcases List.mem_cons.mp he' with rfl | he'
      · exact hnow
      · exact hpre e' he'
    · rcases (user_change hpast hserve hallow).row_before hu with ⟨-, hmay, -⟩ | ⟨row, hrow, -, hc⟩
      · exact absurd hmay.unscreened hscreen
      · cases hc with
        | same heq => exact heq ▸ hnow row hrow
        | commit u' m _ hmay happly heq =>
          have hkept := mutated_fromStart hstart hcall hscreen
            (fun _ => read_fromStart hpast hpre) (hnow row hrow) hmay happly
          rw [heq]
          exact hkept

/-! ## The answers of the store -/

theorem FromStart.mismatch {u : User} (hu : FromStart w₀ u) (hstart : Unguessed cfg calls w₀.users)
    {call : Call} (hcall : call ∈ calls) {password : Bytes}
    (hpassword : call.password? = some password) : Mismatch cfg password u := by
  obtain ⟨u₀, hu₀, -, -, hhash⟩ := hu
  intro hne
  rw [← hhash] at hne ⊢
  exact hstart.mismatch hu₀ hcall hpassword hne

/-- The address of an account that was there from the start is held by nobody else. -/
theorem FromStart.distinct {u v : User} (hu : FromStart w₀ u) (hv : FromStart w₀ v)
    (hstart : Unguessed cfg calls w₀.users) (hemail : v.email = u.email) : v.id = u.id := by
  obtain ⟨u₀, hu₀, hid, hemail₀, -⟩ := hu
  obtain ⟨v₀, hv₀, hid', hemail', -⟩ := hv
  rw [← hid, ← hid']
  exact hstart.distinct v₀ hv₀ u₀ hu₀ (by rw [hemail₀, hemail', hemail])

/-- A store without faults gives nothing away to the four operations. -/
theorem unrevealing (hv : Trace cfg w₀ trace w) (hstart : Unguessed cfg calls w₀.users)
    (hfaults : Faultless trace) (hcalls : ∀ e ∈ trace, e.call ∈ calls ∧ e.call.screen? ≠ none) :
    ∀ e ∈ trace, Unrevealing cfg e.call.password? e.op e.res := by
  intro e he
  obtain ⟨hcall, hscreen⟩ := hcalls e he
  have hfault := hfaults e he
  obtain ⟨hpre, -⟩ := users_fromStart hv hstart hcalls
  have hrows := hpre e he
  obtain ⟨later, past, rfl⟩ := List.append_of_mem he
  obtain ⟨hpast, hserve, hallow, -⟩ := Valid.entry hv
  obtain ⟨tid, call, op, ch, r, pre, post⟩ := e
  cases op with
  | getUserByID id =>
    intro err herr
    exact UserStore.getUserByID_error
      ((congrArg Prod.fst (store_faultless hfault hserve)).trans herr)
  | getUserByEmail email =>
    have hr := congrArg Prod.fst (store_faultless hfault hserve)
    refine ⟨fun err herr => UserStore.getUserByEmail_error (hr.trans herr), ?_⟩
    intro u password hu hpassword
    exact (hrows u (UserStore.getUserByEmail_eq_ok (hr.trans hu)).1).mismatch hstart hcall hpassword
  | updateUser u =>
    intro err herr
    have hr := congrArg Prod.fst (store_faultless hfault hserve)
    obtain ⟨u₀, m, hread, hmay, happly⟩ := hallow
    have hpast' : ∀ e ∈ past, ∀ u ∈ e.pre.users, FromStart w₀ u := fun e he =>
      hpre e (List.mem_append_right _ (List.mem_cons_of_mem _ he))
    have hwritten : FromStart w₀ u := mutated_fromStart hstart hcall hscreen
      (fun _ => read_fromStart hpast hpast') (read_fromStart hpast hpast' (Or.inl hread)) hmay happly
    rcases UserStore.updateUser_error (hr.trans herr) with h | h | ⟨-, v, hmem, hid, hemail⟩
    · exact Or.inl h
    · exact Or.inr h
    · exact absurd (hwritten.distinct (hrows v hmem) hstart hemail) hid
  | createToken t => exact (congrArg Prod.fst (store_faultless hfault hserve)).symm
  | _ => trivial

/-! ## Probing -/

/-- Outsiders call the four operations, one call after the other, over a store that
    works and that they know no password of. -/
structure Probed (L : Limiter) (times : Nat → Time) (s₀ : L.State) (w₀ : World)
    (bs : List (Call × List Choice)) (c : Run cfg) : Prop extends
    Visited L times s₀ w₀ bs c where
  faultless : Faultless c.trace
  unguessed : Unguessed cfg (bs.map Prod.fst) w₀.users

/-- What a call shows of itself, which is all but its password and the user agent. -/
def Call.shown (call : Call) : Option (String × String × String × Bool) :=
  call.screen?.map (fun x => (x.1, x.2.1, x.2.2.ip, call.password?.isSome))

/-- The error of a call by what the limiter makes of its keys, and the state the
    limiter is left in. -/
def Limiter.judge (L : Limiter) (now : Time) (s : L.State) (keys : List String)
    (verdict : Option Err) : Option Err × L.State :=
  ((if (L.screen now s keys).1 then verdict else some .rateLimited), (L.screen now s keys).2)

theorem Call.shown_eq (cfg : Config) {call call' : Call} (h : call.shown = call'.shown)
    (hcall : call.screen? ≠ none) : call.keys cfg = call'.keys cfg ∧ call.verdict = call'.verdict := by
  unfold Call.shown at h
  cases hs : call.screen? with
  | none => exact absurd hs hcall
  | some x =>
    cases hs' : call'.screen? with
    | none => rw [hs, hs'] at h; cases h
    | some x' =>
      obtain ⟨scope, email, ri⟩ := x
      obtain ⟨scope', email', ri'⟩ := x'
      rw [hs, hs'] at h
      simp only [Option.map_some, Option.some.injEq, Prod.mk.injEq] at h
      obtain ⟨rfl, rfl, hip, hpassword⟩ := h
      refine ⟨?_, ?_⟩
      · simp only [Call.keys, hs, hs', Service.screenKeys, limiterKeys, hip]
      · simp only [Call.verdict, hs, hs']
        cases hp : call.password? with
        | none => cases hp' : call'.password? with
          | none => rfl
          | some p' => rw [hp, hp'] at hpassword; cases hpassword
        | some p => cases hp' : call'.password? with
          | none => rw [hp, hp'] at hpassword; cases hpassword
          | some p' => rfl

section Probed

variable {L : Limiter} {times : Nat → Time} {s₀ : L.State} {bs : List (Call × List Choice)}
  {c : Run cfg}

theorem Probed.unrevealing (hp : Probed L times s₀ w₀ bs c) :
    ∀ e ∈ c.trace, Unrevealing cfg e.call.password? e.op e.res := by
  obtain ⟨as, hrun⟩ := Config.runBlocks_run hp.run
  exact Sulis.unrevealing (run_trace_valid hrun) hp.unguessed hp.faultless
    (fun e he => hp.entry_call he)

/-- The limiter judges one call after the other. -/
theorem Probed.judged (hp : Probed L times s₀ w₀ bs c) {i : Nat} {b : Call × List Choice}
    (hb : bs[i]? = some b) :
    ∃ err, (errors c)[i]? = some err ∧
      (err, L.after times s₀ (c.before (i + 1))) =
        L.judge (times i) (L.after times s₀ (c.before i)) (b.1.keys cfg) b.1.verdict := by
  obtain ⟨out, hret⟩ := hp.returned hb
  have hscreened := hp.screened (fun _ hcall => Service.program_screened hcall) hp.unrevealing hb hret
  refine ⟨errorOf out, ?_, ?_⟩
  · rw [errors, List.getElem?_map, hret]
    rfl
  rcases hp.decided hscreened with ⟨hs, hV⟩ | ⟨hs, herr⟩
  · rw [Limiter.judge, hs, hV]
    rfl
  · rw [Limiter.judge, hs, herr]
    rfl

end Probed

/-- Whoever calls the operations that take an address, and knows no password, gets
    the same errors from every store: whether an address has an account, and in what
    state the account is, does not show. -/
theorem no_enumeration {L : Limiter} {times : Nat → Time} {s₀ : L.State} {w₁ w₂ : World}
    {bs₁ bs₂ : List (Call × List Choice)} {c₁ c₂ : Run cfg} (h₁ : Probed L times s₀ w₁ bs₁ c₁)
    (h₂ : Probed L times s₀ w₂ bs₂ c₂)
    (hsame : bs₁.map (·.1.shown) = bs₂.map (·.1.shown)) : errors c₁ = errors c₂ := by
  have hlen : bs₁.length = bs₂.length := by simpa using congrArg List.length hsame
  have herrors {w : World} {bs : List (Call × List Choice)} {c : Run cfg}
      (hp : Probed L times s₀ w bs c) : (errors c).length = bs.length := by
    simpa [errors] using congrArg List.length hp.invoked
  -- Up to any call, the errors agree and so does the state of the limiter.
  have agree : ∀ n, n ≤ bs₁.length →
      L.after times s₀ (c₁.before n) = L.after times s₀ (c₂.before n) ∧
        ∀ i < n, (errors c₁)[i]? = (errors c₂)[i]? := by
    intro n
    induction n with
    | zero =>
      intro _
      rw [Config.before_zero, Config.before_zero]
      exact ⟨rfl, fun i hi => absurd hi (Nat.not_lt_zero i)⟩
    | succ n ih =>
      intro hn
      obtain ⟨hstate, hbelow⟩ := ih (Nat.le_of_succ_le hn)
      have hb₁ := List.getElem?_eq_getElem (l := bs₁) hn
      have hb₂ := List.getElem?_eq_getElem (l := bs₂) (hlen ▸ hn)
      have hshown := congrArg (·[n]?) hsame
      simp only [List.getElem?_map, hb₁, hb₂, Option.map_some, Option.some.injEq] at hshown
      obtain ⟨hkeys, hverdict⟩ := Call.shown_eq cfg hshown
        (h₁.outside _ (List.mem_of_getElem? hb₁))
      obtain ⟨err₁, he₁, hj₁⟩ := h₁.judged hb₁
      obtain ⟨err₂, he₂, hj₂⟩ := h₂.judged hb₂
      rw [← hstate, ← hkeys, ← hverdict, ← hj₁, Prod.mk.injEq] at hj₂
      refine ⟨hj₂.2.symm, fun i hi => ?_⟩
      rcases Nat.lt_succ_iff_lt_or_eq.mp hi with hlt | rfl
      · exact hbelow i hlt
      · rw [he₁, he₂, hj₂.1]
  refine List.ext_getElem? (fun i => ?_)
  rcases Nat.lt_or_ge i bs₁.length with hi | hi
  · exact (agree _ le_rfl).2 i hi
  · rw [List.getElem?_eq_none (herrors h₁ ▸ hi), List.getElem?_eq_none (by rw [herrors h₂]; omega)]

end

section

open Scenario

attribute [local instance] plain

/-- With a limiter, and with accounts that lock after five wrong passwords. -/
def screenedConfig : Config := { config with limiter := true, failureLockoutThreshold := 5 }

/-- A limiter that lets five questions through. -/
def fiveQuestions : Limiter where
  State := Nat
  allow := fun n _ _ => (if n < 5 then .ok () else .error .rateLimited, n + 1)

/-- A disabled account with a password. -/
def closedAccount : User :=
  { id := ident 100, email := "a"
    passwordHash := hashPassword [1] config.argon2 config.pepper (draw 100)
    createdAt := 0, updatedAt := 0, disabledAt := some 0 }

def closedStore : World := { users := Store.Table.empty.put closedAccount }

/-- A wrong password, a link, and one question too many. The first call takes longer
    if there is a password to compare with. -/
def probes (steps : Nat) : List (Call × List Choice) :=
  blocks 0 [(.login "a" [2] ⟨"1", ""⟩, steps), (.createMagicLinkToken "a" ⟨"1", ""⟩, 8)] ++
    [(.login "a" [2] ⟨"1", ""⟩, [tick 50, { tick 51 with refusal := some .rateLimited }])]

theorem unguessed_closedStore {steps : Nat} :
    Unguessed screenedConfig ((probes steps).map Prod.fst) closedStore.users := by
  have only {u : User} (hu : u ∈ closedStore.users) : u = closedAccount := by
    rcases Store.Table.mem_put.mp hu with rfl | ⟨hmem, -⟩
    · rfl
    · exact absurd hmem (Store.Table.not_mem_empty u)
  refine ⟨fun u hu v hv _ => by rw [only hu, only hv], fun u hu _ => ?_, ?_⟩
  · rw [only hu]
    have : (decodeHash closedAccount.passwordHash).toOption.isSome = true := by decide +kernel
    cases h : decodeHash closedAccount.passwordHash with
    | ok x => exact ⟨x, rfl⟩
    | error err => rw [h] at this; cases this
  · intro u hu call hcall password hpassword legacy
    rw [only hu]
    have : password = [2] := by
      simp only [probes, blocks, List.map_cons, List.map_nil, List.cons_append,
        List.nil_append, List.mem_cons, List.not_mem_nil, or_false] at hcall
      rcases hcall with rfl | rfl | rfl
      · exact (Option.some.inj hpassword).symm
      · cases hpassword
      · exact (Option.some.inj hpassword).symm
    subst this
    cases legacy <;> decide +kernel

theorem unguessed_empty {calls : List Call} : Unguessed screenedConfig calls .empty :=
  ⟨fun u hu => absurd hu (Store.Table.not_mem_empty u),
    fun u hu => absurd hu (Store.Table.not_mem_empty u),
    fun u hu => absurd hu (Store.Table.not_mem_empty u)⟩

/-- A run of the probes, with what can be checked about it by running it. -/
theorem probed_probes (w₀ : World) (steps : Nat)
    (h : ((Config.start w₀ : Run screenedConfig).runBlocks (probes steps)).any (fun c =>
      fiveQuestions.obeyed (fun _ => 0) (0 : Nat) c.trace &&
        c.trace.all (fun e => e.choice.fault = none)) = true)
    (hunguessed : Unguessed screenedConfig ((probes steps).map Prod.fst) w₀.users) :
    ∃ c : Run screenedConfig,
      Probed fiveQuestions (fun _ => 0) (0 : Nat) w₀ (probes steps) c := by
  obtain ⟨c, hrun, htest⟩ := (Option.any_eq_true _ _).mp h
  rw [Bool.and_eq_true, List.all_eq_true] at htest
  refine ⟨c, ⟨hrun, ?_, Limiter.obeys_of_obeyed htest.1⟩,
    fun e he => of_decide_eq_true (htest.2 e he), hunguessed⟩
  intro b hb
  simp only [probes, blocks, List.cons_append, List.nil_append, List.mem_cons, List.not_mem_nil,
    or_false] at hb
  rcases hb with rfl | rfl | rfl
  · exact Option.some_ne_none _
  · exact Option.some_ne_none _
  · exact Option.some_ne_none _

theorem no_enumeration_closedAccount :
    ∃ c₁ c₂ : Run screenedConfig,
      Probed fiveQuestions (fun _ => 0) (0 : Nat) {} (probes 3) c₁ ∧
      Probed fiveQuestions (fun _ => 0) (0 : Nat) closedStore (probes 6) c₂ ∧
      errors c₁ = errors c₂ := by
  obtain ⟨c₁, h₁⟩ := probed_probes {} 3 (by decide +kernel) unguessed_empty
  obtain ⟨c₂, h₂⟩ := probed_probes closedStore 6 (by decide +kernel) unguessed_closedStore
  exact ⟨c₁, c₂, h₁, h₂, no_enumeration h₁ h₂ rfl⟩

end

end Sulis
