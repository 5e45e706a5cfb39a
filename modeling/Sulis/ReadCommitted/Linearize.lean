-- SUMMARY: Calls that write under a lock of their own or read once look as if they ran one at a time, in an order that fits real time.
import Sulis.ReadCommitted.Guarded
import Sulis.ReadCommitted.Serial

/-!
# Linearization

A call that writes takes effect when it ends, and one that reads does when its only
statement runs. The log of calls in this order is a serial execution of the
specification.
-/

namespace ReadCommitted

open Store

variable {σ ρ κ γ α : Type}

/-! ## Real time -/

/-- The one call had returned before the other was made. -/
def Precedes (trace : List (Moment ρ κ γ α)) (i j : Nat) : Prop :=
  ∃ m ∈ trace, (m.pre.returned i).isSome ∧ m.pre.sessions.length ≤ j

/-- No call stands behind one that was made only after it had returned. -/
def InOrder (trace : List (Moment ρ κ γ α)) (log : List (Entry γ α)) : Prop :=
  log.Pairwise fun e e' => ¬ Precedes trace e'.session e.session

/-- The calls that have returned, and what is committed, are those of some order that fits
    real time. -/
def Linearizable (exec : σ → γ → α × σ) (rel : Heap ρ → σ → Prop) (st₀ : σ)
    (trace : List (Moment ρ κ γ α)) (c : Config ρ κ γ α) : Prop :=
  ∃ log st, Serial exec st₀ log st ∧ rel c.heap st ∧ Records log c ∧ InOrder trace log

/-! ## What is asked of the calls -/

/-- What a script that is at its end returns. -/
def Script.Gives (script : Script ρ κ α) (out : α) : Prop :=
  script = .commit out ∨ script = .rollback out

def Script.Ends : Script ρ κ α → Prop
  | .exec _ _ => False
  | _ => True

/-- A call takes its lock first and then keeps to its part of the heap, or reads once. -/
inductive Shape (scope : ρ → Bool) (k : κ) : Script ρ κ α → Prop
  | write {next : List ρ → Script ρ κ α} (within : (next []).Within scope) :
      Shape scope k (.exec (.lock k) next)
  | read {p : ρ → Bool} {next : List ρ → Script ρ κ α} (ends : ∀ rows, (next rows).Ends) :
      Shape scope k (.exec (.select p) next)

/-- A specification that executes calls at once, and why each call alone does the same. -/
structure Implements (client : Client ρ κ γ α) (good : γ → Prop) (scope : γ → ρ → Bool)
    (key : γ → κ) (exec : σ → γ → α × σ) (rel : Heap ρ → σ → Prop) : Prop where
  shape : ∀ call, Shape (scope call) (key call) (client.body call)
  /-- Calls that could get into each other's way have the same lock. -/
  shared : ∀ {a b : γ} {r : ρ}, scope a r → scope b r → key a = key b
  write : ∀ {call : γ} {next : List ρ → Script ρ κ α} {heap heap' : Heap ρ} {st : σ} {out : α},
    good call → client.body call = .exec (.lock (key call)) next → rel heap st →
    Alone (heap.within (scope call)) (heap.within (scope call)) (.ready (next [])) out
      (heap'.within (scope call)) →
    (∀ id r, ¬ scope call r → ((id, r) ∈ heap' ↔ (id, r) ∈ heap)) →
    ∃ st', exec st call = (out, st') ∧ rel heap' st'
  read : ∀ {call : γ} {p : ρ → Bool} {next : List ρ → Script ρ κ α} {heap : Heap ρ} {st : σ} {out : α},
    good call → client.body call = .exec (.select p) next → rel heap st →
    (next (heap.visible.filter p)).Gives out → exec st call = (out, st)
  pure : ∀ {call : γ} {p : ρ → Bool} {next : List ρ → Script ρ κ α},
    client.body call = .exec (.select p) next → ∀ st, (exec st call).2 = st

/-- Every call that is made is one of these. -/
def Issues (good : γ → Prop) (_ : Config ρ κ γ α) : Action γ → Prop
  | .invoke call => good call
  | _ => True

instance {good : γ → Prop} [DecidablePred good] (c : Config ρ κ γ α) :
    (a : Action γ) → Decidable (Issues good c a)
  | .invoke call => inferInstanceAs (Decidable (good call))
  | .move _ | .take _ _ | .fail _ => .isTrue trivial

/-! ## How far a session has come -/

section

variable (client : Client ρ κ γ α) (scope : γ → ρ → Bool) (key : γ → κ)

def Reads (call : γ) : Prop := ∃ p next, client.body call = .exec (.select p) next

inductive Progress (heap : Heap ρ) (log : List (Entry γ α)) (i : Nat) (s : Session ρ κ γ α) : Prop
  | waiting (stage : s.stage = .invoked ∨ s.stage = .ready (client.body s.call))
      (writes : s.writes = []) (unlogged : i ∉ log.map Entry.session)
  | working {next : List ρ → Script ρ κ α}
      (body : client.body s.call = .exec (.lock (key s.call)) next)
      (work : Working (scope s.call) (key s.call) heap next s) (unlogged : i ∉ log.map Entry.session)
  | answered {script : Script ρ κ α} (reads : Reads client s.call)
      (stage : s.stage = .ready script) (ends : script.Ends) (writes : s.writes = [])
      (logged : ∀ out, script.Gives out → ⟨i, s.call, out⟩ ∈ log)
  | ended {res : Option α} (stage : s.stage = .returned res)
      (logged : ∀ out, res = some out → ⟨i, s.call, out⟩ ∈ log)

/-- What a step of a session means for the log. -/
inductive Effect (c : Config ρ κ γ α) (exec : σ → γ → α × σ) (rel : Heap ρ → σ → Prop)
    (log : List (Entry γ α)) (st : σ) (i : Nat) (s s' : Session ρ κ γ α) (heap : Heap ρ) :
    List (Entry γ α) → σ → Prop
  | same (hheap : heap = c.heap) : Effect c exec rel log st i s s' heap log st
  /-- The call takes effect now. -/
  | logs {out : α} {st' : σ} (unlogged : i ∉ log.map Entry.session)
      (hexec : exec st s.call = (out, st')) (hrel : rel heap st')
      (hkept : s' = s.ended (some out) ∨ Reads client s.call) :
      Effect c exec rel log st i s s' heap (log ++ [⟨i, s.call, out⟩]) st'

end

variable {client : Client ρ κ γ α} {good : γ → Prop} {scope : γ → ρ → Bool} {key : γ → κ}
variable {exec : σ → γ → α × σ} {rel : Heap ρ → σ → Prop} {st₀ st st' : σ}
variable {c c' : Config ρ κ γ α} {i j : Nat} {s s' t : Session ρ κ γ α} {heap heap' : Heap ρ}
variable {fresh : Nat} {log log' : List (Entry γ α)} {trace : List (Moment ρ κ γ α)}

/-! ## A step of the session itself -/

theorem Progress.failed (hstage : s' = s.ended none) : Progress client scope key heap log i s' := by
  subst hstage
  exact .ended rfl (by rintro out ⟨⟩)

theorem ended_of_follows_ends {script : Script ρ κ α} (hends : script.Ends)
    (h : Follows client c i s s' heap' fresh (.ready script)) (hwrites : s.writes = []) :
    ∃ out, script.Gives out ∧ s' = s.ended (some out) ∧ heap' = c.heap := by
  cases script with
  | commit out =>
    obtain ⟨rfl, rfl, -⟩ := h
    exact ⟨out, Or.inl rfl, rfl, Config.view_of_writes_nil hwrites⟩
  | rollback out =>
    obtain ⟨rfl, rfl, -⟩ := h
    exact ⟨out, Or.inr rfl, rfl, rfl⟩
  | abort => exact h.elim
  | exec => exact hends.elim

/-- What a session that reads does to the log with its statement. -/
theorem Progress.answer {p : ρ → Bool} {next : List ρ → Script ρ κ α}
    (himp : Implements client good scope key exec rel) (hgood : good s.call) (hrel : rel c.heap st)
    (hbody : client.body s.call = .exec (.select p) next) (hends : ∀ rows, (next rows).Ends)
    (hwrites : s.writes = []) (hunlogged : i ∉ log.map Entry.session)
    (hs' : s' = { s with stage := .ready (next ((c.view s).visible.filter p)) }) :
    ∃ log' st', Effect client c exec rel log st i s s' c.heap log' st' ∧
      Progress client scope key c.heap log' i s' := by
  rw [Config.view_of_writes_nil hwrites] at hs'
  have hreads : Reads client s.call := ⟨p, next, hbody⟩
  have hread : ∀ {out}, (next (c.heap.visible.filter p)).Gives out → exec st s.call = (out, st) :=
    himp.read hgood hbody hrel
  have hanswered : ∀ log', (∀ out, (next (c.heap.visible.filter p)).Gives out →
      (⟨i, s.call, out⟩ : Entry γ α) ∈ log') → Progress client scope key c.heap log' i s' := by
    intro log' hlogged
    subst hs'
    exact .answered hreads rfl (hends _) hwrites hlogged
  have hends := hends (c.heap.visible.filter p)
  cases hscript : next (c.heap.visible.filter p) with
  | exec => rw [hscript] at hends; exact hends.elim
  | abort =>
    refine ⟨log, st, .same rfl, hanswered log ?_⟩
    rintro out (hout | hout) <;> cases hscript.symm.trans hout
  | commit out =>
    refine ⟨_, _, .logs hunlogged (hread (Or.inl hscript)) hrel (Or.inr hreads), hanswered _ ?_⟩
    rintro out' (hout | hout)
    · cases hscript.symm.trans hout
      exact List.mem_append_right _ (List.mem_singleton.mpr rfl)
    · cases hscript.symm.trans hout
  | rollback out =>
    refine ⟨_, _, .logs hunlogged (hread (Or.inr hscript)) hrel (Or.inr hreads), hanswered _ ?_⟩
    rintro out' (hout | hout)
    · cases hscript.symm.trans hout
    · cases hscript.symm.trans hout
      exact List.mem_append_right _ (List.mem_singleton.mpr rfl)

theorem Progress.move (himp : Implements client good scope key exec rel) (hsound : c.Sound)
    (hs : c.sessions[i]? = some s) (hgood : good s.call) (hrel : rel c.heap st)
    (h : Progress client scope key c.heap log i s) (hmove : Moves client c i s s' heap' fresh) :
    ∃ log' st', Effect client c exec rel log st i s s' heap' log' st' ∧
      Progress client scope key heap' log' i s' := by
  have hcall := hmove.call
  cases h with
  | waiting stage writes unlogged =>
    rcases hmove.follows with ⟨hs', rfl, -⟩ | hfollows
    · exact ⟨log, st, .same rfl, .failed hs'⟩
    · rcases stage with stage | stage
      · rw [stage] at hfollows
        obtain ⟨rfl, rfl, -⟩ := hfollows
        exact ⟨log, st, .same rfl, .waiting (Or.inr rfl) writes unlogged⟩
      · rw [stage] at hfollows
        have hshape := himp.shape s.call
        cases hbody : client.body s.call with
        | exec stmt next =>
          rw [hbody] at hshape hfollows
          cases hshape with
          | write within =>
            obtain ⟨-, rfl, rfl, -⟩ := hfollows
            refine ⟨log, st, .same rfl, .working hbody ?_ unlogged⟩
            exact Working.start List.mem_cons_self rfl writes within
          | read ends =>
            obtain ⟨hs', rfl, -⟩ := hfollows
            exact Progress.answer himp hgood hrel hbody ends writes unlogged hs'
        | _ => rw [hbody] at hshape; cases hshape
  | @working next body work unlogged =>
    rcases work.move hsound hs hmove with ⟨hwork, rfl⟩ | ⟨out, rfl, halone, houtside⟩ | ⟨hs', rfl⟩
    · refine ⟨log, st, .same rfl, .working (by rw [hcall]; exact body) ?_ unlogged⟩
      rw [hcall]
      exact hwork
    · obtain ⟨st', hexec, hrel'⟩ := himp.write hgood body hrel halone houtside
      refine ⟨_, st', .logs unlogged hexec hrel' (Or.inl rfl), .ended rfl ?_⟩
      rintro out' ⟨⟩
      exact List.mem_append_right _ (List.mem_singleton.mpr rfl)
    · exact ⟨log, st, .same rfl, .failed hs'⟩
  | @answered script reads stage ends writes logged =>
    rcases hmove.follows with ⟨hs', rfl, -⟩ | hfollows
    · exact ⟨log, st, .same rfl, .failed hs'⟩
    · rw [stage] at hfollows
      obtain ⟨out, hgives, rfl, rfl⟩ := ended_of_follows_ends ends hfollows writes
      refine ⟨log, st, .same rfl, .ended rfl ?_⟩
      rintro out' ⟨⟩
      exact logged out hgives
  | ended stage =>
    have hover := hmove.not_over
    rw [stage] at hover
    cases hover

/-! ## Steps of other sessions -/

theorem Effect.mem_of_mem {e : Entry γ α} (h : Effect client c exec rel log st i s s' heap' log' st')
    (he : e ∈ log) : e ∈ log' := by
  cases h with
  | same => exact he
  | logs => exact List.mem_append_left _ he

theorem Effect.unlogged_of_ne (h : Effect client c exec rel log st i s s' heap' log' st') (hne : j ≠ i)
    (hj : j ∉ log.map Entry.session) : j ∉ log'.map Entry.session := by
  cases h with
  | same => exact hj
  | logs =>
    rw [List.map_append, List.mem_append, not_or]
    exact ⟨hj, fun hmem => hne (List.mem_singleton.mp hmem)⟩

/-- Under its lock a session is not disturbed by what another one commits. -/
theorem Working.others {scope' : ρ → Bool} {k k' : κ} {next next' : List ρ → Script ρ κ α}
    (h : Working scope' k' c.heap next' t) (hsound : c.Sound) (hne : j ≠ i)
    (hs : c.sessions[i]? = some s) (ht : c.sessions[j]? = some t) {own : ρ → Bool}
    (hwork : Working own k c.heap next s) (hshared : ∀ r, own r → scope' r → k = k') :
    Working scope' k' (c.view s) next' t := by
  have hapart : ∀ r, own r → ¬ scope' r := by
    intro r hr hr'
    have hk := hshared r hr hr'
    exact hsound.locksApart hne ht hs h.held (hk ▸ hwork.held)
  refine h.frame ?_ fun w hw r hr => ?_
  · exact Heap.overlay_within_of_outside (fun w hw r hr => hapart r (hwork.old w hw r hr))
      (fun w hw r hr => hapart r (hwork.new w hw r hr))
  · exact (hsound.mem_view_of_locked hne hs ht (List.mem_map.mpr ⟨w, hw, rfl⟩)).mp hr

theorem Progress.others (himp : Implements client good scope key exec rel) (hsound : c.Sound)
    (hne : j ≠ i) (hs : c.sessions[i]? = some s) (ht : c.sessions[j]? = some t)
    (hown : Progress client scope key c.heap log i s) (h : Progress client scope key c.heap log j t)
    (hmove : Moves client c i s s' heap' fresh)
    (heffect : Effect client c exec rel log st i s s' heap' log' st') :
    Progress client scope key heap' log' j t := by
  cases h with
  | waiting stage writes unlogged =>
    exact .waiting stage writes (heffect.unlogged_of_ne hne unlogged)
  | working body work unlogged =>
    refine .working body ?_ (heffect.unlogged_of_ne hne unlogged)
    rcases hmove.heap_eq with rfl | ⟨out, hcommit, rfl, -⟩
    · exact work
    · cases hown with
      | waiting stage writes | answered _ _ _ writes =>
        rw [Config.view_of_writes_nil writes]
        exact work
      | working _ hwork =>
        exact work.others hsound hne hs ht hwork fun r hr hr' => himp.shared hr hr'
      | ended stage => cases hcommit.symm.trans stage
  | answered reads stage ends writes logged =>
    exact .answered reads stage ends writes fun out hout => heffect.mem_of_mem (logged out hout)
  | ended stage logged => exact .ended stage fun out hout => heffect.mem_of_mem (logged out hout)

/-! ## Runs -/

/-- What a run has come to, with the log of the calls that have taken effect. -/
structure Account (client : Client ρ κ γ α) (good : γ → Prop) (scope : γ → ρ → Bool) (key : γ → κ)
    (exec : σ → γ → α × σ) (rel : Heap ρ → σ → Prop) (st₀ : σ) (trace : List (Moment ρ κ γ α))
    (c : Config ρ κ γ α) (log : List (Entry γ α)) (st : σ) : Prop where
  sound : c.Sound
  serial : Serial exec st₀ log st
  rel : rel c.heap st
  good : ∀ {i : Nat} {s : Session ρ κ γ α}, c.sessions[i]? = some s → good s.call
  progress : ∀ {i : Nat} {s : Session ρ κ γ α}, c.sessions[i]? = some s →
    Progress client scope key c.heap log i s
  nodup : (log.map Entry.session).Nodup
  /-- An entry whose call has not returned, or has failed, is that of a call that reads. -/
  kept : ∀ e ∈ log, e.session < c.sessions.length ∧
    (c.returned e.session = some (e.call, some e.out) ∨ Reads client e.call)
  /-- A call that has returned stays so. -/
  past : ∀ m ∈ trace, ∀ i, (m.pre.returned i).isSome → (c.returned i).isSome
  order : InOrder trace log

theorem Config.returned_isSome : (c.returned i).isSome ↔ ∃ s, c.sessions[i]? = some s ∧ s.stage.over := by
  constructor
  · intro h
    obtain ⟨⟨call, out⟩, hout⟩ := Option.isSome_iff_exists.mp h
    obtain ⟨s, hs, -, hstage⟩ := Config.returned_eq_some.mp hout
    exact ⟨s, hs, by rw [hstage]; rfl⟩
  · rintro ⟨s, hs, hover⟩
    cases hstage : s.stage with
    | returned out =>
      rw [Config.returned_eq_some.mpr ⟨s, hs, rfl, hstage⟩]
      rfl
    | _ => rw [hstage] at hover; cases hover

/-- What a call has returned, it has returned for good. -/
theorem Config.returned_move {call : γ} {out : Option α} (hs : c.sessions[i]? = some s)
    (hover : s.stage.over = false) (h : c.returned j = some (call, out)) :
    Config.returned ⟨heap', fresh, c.sessions.set i s'⟩ j = some (call, out) := by
  obtain ⟨t, ht, hcall, hstage⟩ := Config.returned_eq_some.mp h
  refine Config.returned_eq_some.mpr ⟨t, ?_, hcall, hstage⟩
  have hne : i ≠ j := by
    rintro rfl
    obtain rfl := Option.some.inj (hs.symm.trans ht)
    rw [hstage] at hover
    cases hover
  exact (List.getElem?_set_ne hne).trans ht

theorem Config.returned_invoke (c : Config ρ κ γ α) (call : γ) (i : Nat) :
    (c.invoked call).returned i = c.returned i := by
  unfold Config.returned
  rcases Nat.lt_trichotomy i c.sessions.length with hlt | rfl | hgt
  · simp [List.getElem?_append_left hlt]
  · simp [Stage.out?]
  · rw [List.getElem?_eq_none (by simp; omega), List.getElem?_eq_none (by omega)]

namespace Account

/-- The moment itself puts nothing out of order: what is in the log was made before it. -/
theorem order_cons {a : Action γ} (h : Account client good scope key exec rel st₀ trace c log st) :
    InOrder (⟨c, a, c'⟩ :: trace) log := by
  refine h.order.imp_of_mem ?_
  rintro e e' he - hnot ⟨m, hm, hreturned, hlen⟩
  rcases List.mem_cons.mp hm with rfl | hm
  · exact absurd (h.kept e he).1 (Nat.not_lt.mpr hlen)
  · exact hnot ⟨m, hm, hreturned, hlen⟩

theorem past_cons {a : Action γ} (h : Account client good scope key exec rel st₀ trace c log st)
    (hstays : ∀ i, (c.returned i).isSome → (c'.returned i).isSome) :
    ∀ m ∈ (⟨c, a, c'⟩ : Moment ρ κ γ α) :: trace, ∀ i, (m.pre.returned i).isSome →
      (c'.returned i).isSome := by
  intro m hm i hi
  rcases List.mem_cons.mp hm with rfl | hm
  · exact hstays i hi
  · exact hstays i (h.past m hm i hi)

theorem invoke {call : γ} (h : Account client good scope key exec rel st₀ trace c log st)
    (hgood : good call) :
    Account client good scope key exec rel st₀
      (⟨c, .invoke call, c.invoked call⟩ :: trace)
      (c.invoked call) log st where
  sound := h.sound.invoke call
  serial := h.serial
  rel := h.rel
  good := by
    intro i s hs
    rcases getElem?_concat_cases hs with hs | ⟨-, rfl⟩
    · exact h.good hs
    · exact hgood
  progress := by
    intro i s hs
    rcases getElem?_concat_cases hs with hs | ⟨rfl, rfl⟩
    · exact h.progress hs
    · refine .waiting (Or.inl rfl) rfl fun hmem => ?_
      obtain ⟨e, he, heq⟩ := List.mem_map.mp hmem
      exact absurd (h.kept e he).1 (by omega)
  nodup := h.nodup
  kept := by
    intro e he
    obtain ⟨hlt, hkept⟩ := h.kept e he
    rw [Config.returned_invoke]
    exact ⟨by simp only [List.length_append]; omega, hkept⟩
  past := h.past_cons fun i hi => by rwa [Config.returned_invoke]
  order := h.order_cons

theorem move {a : Action γ} (himp : Implements client good scope key exec rel)
    (h : Account client good scope key exec rel st₀ trace c log st) (hs : c.sessions[i]? = some s)
    (hmove : Moves client c i s s' heap' fresh) :
    ∃ log' st', Account client good scope key exec rel st₀
      (⟨c, a, ⟨heap', fresh, c.sessions.set i s'⟩⟩ :: trace)
      ⟨heap', fresh, c.sessions.set i s'⟩ log' st' := by
  obtain ⟨log', st', heffect, hprogress⟩ :=
    (h.progress hs).move himp h.sound hs (h.good hs) h.rel hmove
  have hstays : ∀ {j call out}, c.returned j = some (call, out) →
      Config.returned ⟨heap', fresh, c.sessions.set i s'⟩ j = some (call, out) :=
    Config.returned_move hs hmove.not_over
  refine ⟨log', st', ?_⟩
  constructor
  case sound => exact h.sound.move hs hmove
  case serial =>
    cases heffect with
    | same => exact h.serial
    | logs _ hexec => exact h.serial.concat hexec
  case rel =>
    cases heffect with
    | same hheap => subst hheap; exact h.rel
    | logs _ _ hrel => exact hrel
  case good =>
    intro j t ht
    obtain ⟨t₀, ht₀, hcall, -⟩ := hmove.before hs ht
    rw [hcall]
    exact h.good ht₀
  case progress =>
    intro j t ht
    rcases getElem?_set_cases ht with ⟨rfl, rfl⟩ | ⟨hne, ht'⟩
    · exact hprogress
    · exact Progress.others himp h.sound hne hs ht' (h.progress hs) (h.progress ht') hmove heffect
  case nodup =>
    cases heffect with
    | same => exact h.nodup
    | logs hunlogged =>
      rw [List.map_append, List.map_singleton]
      refine List.nodup_append.mpr ⟨h.nodup, List.nodup_singleton _, fun a ha b hb heq => hunlogged ?_⟩
      obtain rfl : b = i := List.mem_singleton.mp hb
      exact heq ▸ ha
  case kept =>
    have hold : ∀ e ∈ log, e.session < (c.sessions.set i s').length ∧
        (Config.returned ⟨heap', fresh, c.sessions.set i s'⟩ e.session = some (e.call, some e.out) ∨
          Reads client e.call) := by
      intro e he
      obtain ⟨hlt, hkept⟩ := h.kept e he
      exact ⟨by rwa [List.length_set], hkept.imp_left hstays⟩
    intro e he
    cases heffect with
    | same => exact hold e he
    | logs _ _ _ hkept =>
      rcases List.mem_append.mp he with he | he
      · exact hold e he
      · obtain rfl := List.mem_singleton.mp he
        have hlt := (List.getElem?_eq_some_iff.mp hs).1
        refine ⟨by rwa [List.length_set], ?_⟩
        rcases hkept with rfl | hreads
        · exact Or.inl (Config.returned_eq_some.mpr ⟨_, List.getElem?_set_self hlt, rfl, rfl⟩)
        · exact Or.inr hreads
  case past =>
    refine h.past_cons fun j hj => ?_
    obtain ⟨⟨call, out⟩, hout⟩ := Option.isSome_iff_exists.mp hj
    rw [hstays hout]
    rfl
  case order =>
    cases heffect with
    | same => exact h.order_cons
    | logs =>
      refine List.pairwise_append.mpr ⟨h.order_cons, List.pairwise_singleton _ _, ?_⟩
      -- the session that takes effect now has never been over
      intro e _ e' he' hprecedes
      obtain rfl := List.mem_singleton.mp he'
      obtain ⟨m, hm, hreturned, -⟩ := hprecedes
      have hpast : (c.returned i).isSome := by
        rcases List.mem_cons.mp hm with rfl | hm
        · exact hreturned
        · exact h.past m hm i hreturned
      obtain ⟨s₀, hs₀, hover⟩ := Config.returned_isSome.mp hpast
      obtain rfl := Option.some.inj (hs.symm.trans hs₀)
      rw [hmove.not_over] at hover
      cases hover

open Classical in
/-- The log without the calls that have not returned, or have failed. -/
theorem linearizable (himp : Implements client good scope key exec rel)
    (h : Account client good scope key exec rel st₀ trace c log st) :
    Linearizable exec rel st₀ trace c := by
  let keep : Entry γ α → Bool := fun e => c.returned e.session = some (e.call, some e.out)
  have hkeep : ∀ e ∈ log, keep e = false → ∀ st, (exec st e.call).2 = st := by
    intro e he hout
    rcases (h.kept e he).2 with hreturned | ⟨p, next, hbody⟩
    · simp [keep, hreturned] at hout
    · exact himp.pure hbody
  refine ⟨log.filter keep, st, h.serial.filter keep fun e he hout st _ => hkeep e he hout st, h.rel,
    ⟨?_, ?_⟩, h.order.sublist List.filter_sublist⟩
  · exact (List.filter_sublist.map Entry.session).nodup h.nodup
  · intro i call out
    rw [List.mem_filter]
    constructor
    · rintro ⟨-, hout⟩
      simpa [keep] using hout
    · intro hout
      refine ⟨?_, by simpa [keep] using hout⟩
      obtain ⟨s, hs, rfl, hstage⟩ := Config.returned_eq_some.mp hout
      have hprogress := h.progress hs
      cases hprogress with
      | ended stage logged =>
        cases hstage.symm.trans stage
        exact logged out rfl
      | waiting stage => rcases stage with stage | stage <;> cases hstage.symm.trans stage
      | working _ work =>
        have hwithin := work.within
        rw [hstage] at hwithin
        exact hwithin.elim
      | answered _ stage => cases hstage.symm.trans stage

end Account

section

variable [DecidableEq κ] {heap₀ : Heap ρ} {fresh₀ : Nat}

/-- Any number of calls, their statements interleaved in any way, look as if they ran one
    at a time. A call that fails is as if it had never been made. -/
theorem Implements.linearizable (himp : Implements client good scope key exec rel)
    (hfresh : ∀ t ∈ heap₀, t.1 < fresh₀) (hrel : rel heap₀ st₀)
    (hrun : Run client (Issues good) (.start heap₀ fresh₀) trace c) :
    Linearizable exec rel st₀ trace c := by
  have hinv : ∃ log st, Account client good scope key exec rel st₀ trace c log st := by
    refine Run.invariant
      (I := fun trace c => ∃ log st, Account client good scope key exec rel st₀ trace c log st)
      ?_ ?_ hrun
    · refine ⟨[], st₀, ?_⟩
      constructor
      case sound => exact Config.sound_start hfresh
      case serial => rfl
      case rel => exact hrel
      case good => rintro i s ⟨⟩
      case progress => rintro i s ⟨⟩
      case nodup => exact List.nodup_nil
      case kept => simp
      case past => simp
      case order => exact List.Pairwise.nil
    · rintro trace c a c' ⟨log, st, haccount⟩ hok hstep
      cases hstep with
      | invoke call => exact ⟨log, st, haccount.invoke hok⟩
      | move _ hs hmove => exact haccount.move himp hs hmove
  obtain ⟨log, st, haccount⟩ := hinv
  exact haccount.linearizable himp

end

end ReadCommitted
