-- SUMMARY: Transactions under a lock of their own run as if they were alone.
import Sulis.ReadCommitted.Alone

/-!
# Guarded transactions

A transaction that opens by taking a lock, and from then on keeps to a part of the heap
that no one else touches without the same lock, comes to what it would come to alone.
-/

namespace ReadCommitted

open Store

variable {ρ κ γ α : Type}

/-! ## Keeping to a part of the heap -/

section

variable (scope : ρ → Bool)

/-- A statement depends on rows of the part only, and changes no others. -/
def Stmt.Within : Stmt ρ κ → Prop
  | .lock _ => False
  | .select p => ∀ r, p r → scope r
  | .modify p set =>
    (∀ rows, p rows = p (rows.filter scope)) ∧ (∀ rows r, p rows r → scope r) ∧
      ∀ r r', scope r → set r = some r' → scope r'
  | .insert new target set =>
    (∀ rows, new rows = new (rows.filter scope)) ∧
      ∀ rows row, new rows = some row →
        scope row ∧ ∀ r, target row r → scope r ∧ scope (set r row)

def Script.Within : Script ρ κ α → Prop
  | .exec stmt next => stmt.Within scope ∧ ∀ rows, (next rows).Within
  | _ => True

def Stage.Within : Stage ρ κ α → Prop
  | .ready script => script.Within scope
  | .scanning p set _ _ next =>
    (∀ r, p r → scope r) ∧ (∀ r r', scope r → set r = some r' → scope r') ∧
      ∀ rows, (next rows).Within scope
  | .placing row target set next =>
    scope row ∧ (∀ r, target r → scope r ∧ scope (set r)) ∧ ∀ rows, (next rows).Within scope
  | .invoked | .returned _ => False

end

section

variable {h : Heap ρ} {scope p : ρ → Bool}

theorem filter_visible_within (hp : ∀ r, p r → scope r) :
    (h.within scope).visible.filter p = h.visible.filter p := by
  rw [Heap.visible_within, List.filter_filter]
  refine List.filter_congr fun r _ => ?_
  cases hr : p r with
  | false => rfl
  | true => simp [hp r hr]

theorem matching_within (hp : ∀ r, p r → scope r) : (h.within scope).matching p = h.matching p := by
  unfold Heap.matching Heap.within Table.filter
  rw [List.filter_filter]
  refine congrArg (List.map Prod.fst) (List.filter_congr fun t _ => ?_)
  cases ht : p t.2 with
  | false => rfl
  | true => simp [hp _ ht]

theorem landing_within {fresh : Nat} {row : ρ} {set : ρ → ρ} (hp : ∀ r, p r → scope r) :
    landing (h.within scope) fresh row p set = landing h fresh row p set := by
  have hfind : (h.within scope).rows.find? (fun t => p t.2) = h.rows.find? (fun t => p t.2) := by
    unfold Heap.within Table.filter
    rw [List.find?_filter]
    refine congrArg (fun q => h.rows.find? q) (funext fun t => ?_)
    cases ht : p t.2 with
    | false => simp
    | true => simp [hp _ ht]
  unfold landing
  rw [hfind]

/-- An `INSERT` that keeps to the part lands in it. -/
theorem landing_scope {fresh id : Nat} {row new : ρ} {set : ρ → ρ}
    (hlanding : landing h fresh row p set = (id, new)) (hfresh : ∀ r, (fresh, r) ∉ h)
    (hrow : scope row) (htarget : ∀ r, p r → scope r ∧ scope (set r)) :
    (∀ r, (id, r) ∈ h → scope r) ∧ scope new := by
  rcases landing_cases h fresh row p set with ⟨⟨id', r'⟩, ht, hhit, heq⟩ | ⟨-, heq⟩
  · obtain ⟨rfl, rfl⟩ := Prod.mk.inj (hlanding.symm.trans heq)
    refine ⟨fun r hr => ?_, (htarget r' hhit).2⟩
    obtain rfl := (Prod.mk.inj (Table.eq_of_mem hr ht rfl)).2
    exact (htarget r hhit).1
  · obtain ⟨rfl, rfl⟩ := Prod.mk.inj (hlanding.symm.trans heq)
    exact ⟨fun r hr => absurd hr (hfresh r), hrow⟩

end

/-! ## Under the lock -/

variable {client : Client ρ κ γ α} {c : Config ρ κ γ α} {i j : Nat} {s s' t : Session ρ κ γ α}
variable {heap heap' : Heap ρ} {fresh : Nat} {out : α} {next : List ρ → Script ρ κ α}

/-- A session that has taken its lock and works on its part of the heap: whatever it can
    still come to, the whole transaction could have come to from what is committed now. -/
structure Working (scope : ρ → Bool) (k : κ) (heap : Heap ρ) (next : List ρ → Script ρ κ α)
    (s : Session ρ κ γ α) : Prop where
  held : k ∈ s.held
  within : s.stage.Within scope
  /-- It has written to tuples of its part only. -/
  old : ∀ w ∈ s.writes, ∀ r, (w.1, r) ∈ heap → scope r
  new : ∀ w ∈ s.writes, ∀ r, w.2 = some r → scope r
  alone : ∀ out heap', Alone (heap.within scope) ((heap.overlay s.writes).within scope) s.stage out heap' →
    Alone (heap.within scope) (heap.within scope) (.ready (next [])) out heap'

variable {scope : ρ → Bool} {k : κ}

/-- The transaction begins when the lock is taken. -/
theorem Working.start (hheld : k ∈ s.held) (hstage : s.stage = .ready (next []))
    (hwrites : s.writes = []) (hwithin : (next []).Within scope) : Working scope k heap next s where
  held := hheld
  within := by rw [hstage]; exact hwithin
  old := by simp [hwrites]
  new := by simp [hwrites]
  alone := by
    intro out heap' h
    rw [hwrites, Heap.overlay_nil, hstage] at h
    exact h

/-- Others may do what they like to the rest of the heap. -/
theorem Working.frame (h : Working scope k heap next s) (hsame : heap'.within scope = heap.within scope)
    (hold : ∀ w ∈ s.writes, ∀ r, (w.1, r) ∈ heap' → (w.1, r) ∈ heap) :
    Working scope k heap' next s where
  held := h.held
  within := h.within
  old := fun w hw r hr => h.old w hw r (hold w hw r hr)
  new := h.new
  alone := by
    intro out heap'' halone
    rw [Heap.overlay_within h.new, hsame] at halone
    rw [hsame]
    refine h.alone out heap'' ?_
    rw [Heap.overlay_within h.new]
    exact halone

/-- Outside of its part nothing has changed for the session. -/
theorem Working.outside (h : Working scope k heap next s) {id : Nat} {r : ρ} (hr : ¬ scope r) :
    (id, r) ∈ heap.overlay s.writes ↔ (id, r) ∈ heap := by
  by_cases hid : id ∈ s.writes.map Prod.fst
  · obtain ⟨o, hlook⟩ := Option.isSome_iff_exists.mp (Heap.lookup_isSome_iff.mpr hid)
    have hmem : (id, o) ∈ s.writes := by
      obtain ⟨l₁, l₂, heq, _⟩ := List.lookup_eq_some_iff.mp hlook
      rw [heq]
      simp
    rw [Heap.mem_overlay_of_lookup hlook]
    constructor
    · rintro rfl
      exact absurd (h.new _ hmem r rfl) hr
    · intro hrow
      exact absurd (h.old _ hmem r hrow) hr
  · exact Heap.mem_overlay_of_notMem hid

theorem Working.step (h : Working scope k heap next s) (hheld : s'.held = s.held)
    (hwrites : s'.writes = s.writes) (hwithin : s'.stage.Within scope)
    (hback : ∀ {out heap'},
      Alone (heap.within scope) ((heap.overlay s.writes).within scope) s'.stage out heap' →
        Alone (heap.within scope) ((heap.overlay s.writes).within scope) s.stage out heap') :
    Working scope k heap next s' where
  held := by rw [hheld]; exact h.held
  within := hwithin
  old := by rw [hwrites]; exact h.old
  new := by rw [hwrites]; exact h.new
  alone := by
    intro out heap' halone
    rw [hwrites] at halone
    exact h.alone out heap' (hback halone)

theorem Working.write {id : Nat} {o : Option ρ} (h : Working scope k heap next s)
    (hheld : s'.held = s.held) (hwrites : s'.writes = (id, o) :: s.writes)
    (hwithin : s'.stage.Within scope) (hold : ∀ r, (id, r) ∈ heap.overlay s.writes → scope r)
    (hnew : ∀ r, o = some r → scope r)
    (hback : ∀ {out heap'},
      Alone (heap.within scope) (((heap.overlay s.writes).within scope).write (id, o)) s'.stage out heap' →
        Alone (heap.within scope) ((heap.overlay s.writes).within scope) s.stage out heap') :
    Working scope k heap next s' where
  held := by rw [hheld]; exact h.held
  within := hwithin
  old := by
    rw [hwrites]
    intro w hw r hr
    rcases List.mem_cons.mp hw with rfl | hw
    · -- the tuple may have been written before, and was of the part then
      by_cases hid : id ∈ s.writes.map Prod.fst
      · obtain ⟨w, hmem, rfl⟩ := List.mem_map.mp hid
        exact h.old w hmem r hr
      · exact hold r ((Heap.mem_overlay_of_notMem hid).mpr hr)
    · exact h.old w hw r hr
  new := by
    rw [hwrites]
    intro w hw r hr
    rcases List.mem_cons.mp hw with rfl | hw
    · exact hnew r hr
    · exact h.new w hw r hr
  alone := by
    intro out heap' halone
    rw [hwrites, Heap.overlay_cons, Heap.write_within hnew] at halone
    exact h.alone out heap' (hback halone)

/-- What one step of a session under its lock can be: it goes on, it ends with what it
    would have come to alone, or it fails and leaves nothing. -/
theorem Working.move (h : Working scope k c.heap next s) (hsound : c.Sound)
    (hs : c.sessions[i]? = some s) (hmove : Moves client c i s s' heap' fresh) :
    Working scope k c.heap next s' ∧ heap' = c.heap ∨
      (∃ out, s' = s.ended (some out) ∧
        Alone (c.heap.within scope) (c.heap.within scope) (.ready (next [])) out (heap'.within scope) ∧
        ∀ id r, ¬ scope r → ((id, r) ∈ heap' ↔ (id, r) ∈ c.heap)) ∨
      s' = s.ended none ∧ heap' = c.heap := by
  have hwithin := h.within
  cases hmove with
  | fail => exact Or.inr (Or.inr ⟨rfl, rfl⟩)
  | begin hstage => rw [hstage] at hwithin; exact hwithin.elim
  | lock hstage => rw [hstage] at hwithin; exact hwithin.1.elim
  | select hstage =>
    rw [hstage] at hwithin
    obtain ⟨hp, hnext⟩ := hwithin
    refine Or.inl ⟨h.step rfl rfl (hnext _) fun halone => ?_, rfl⟩
    rw [hstage]
    refine .select ?_
    rw [filter_visible_within hp]
    exact halone
  | scan hstage =>
    rw [hstage] at hwithin
    obtain ⟨⟨hlocal, hp, hset⟩, hnext⟩ := hwithin
    refine Or.inl ⟨h.step rfl rfl ⟨hp _, hset, hnext⟩ fun halone => ?_, rfl⟩
    rw [hstage]
    refine .scan ?_
    rw [Heap.visible_within, ← hlocal, matching_within (hp _)]
    exact halone
  | @hit p set todo hit next' id r hstage hid free hrow hp =>
    rw [hstage] at hwithin
    obtain ⟨hscope, hset, hnext⟩ := hwithin
    have hr := hscope r hp
    refine Or.inl ⟨h.write rfl rfl ⟨hscope, hset, hnext⟩ (fun r' hr' => ?_) (fun r' => hset r r' hr)
      fun halone => ?_, rfl⟩
    · obtain rfl := (Prod.mk.inj (Table.eq_of_mem hr' hrow rfl)).2
      exact hr
    · rw [hstage]
      exact .hit hid (Heap.mem_within.mpr ⟨hrow, hr⟩) hp halone
  | @miss p set todo hit next' id hstage hid free hrow =>
    rw [hstage] at hwithin
    refine Or.inl ⟨h.step rfl rfl hwithin fun halone => ?_, rfl⟩
    rw [hstage]
    exact .miss hid (fun r hr => hrow r (Heap.mem_within.mp hr).1) halone
  | scanned hstage =>
    rw [hstage] at hwithin
    refine Or.inl ⟨h.step rfl rfl (hwithin.2.2 _) fun halone => ?_, rfl⟩
    rw [hstage]
    exact .scanned halone
  | skip hstage hnew =>
    rw [hstage] at hwithin
    obtain ⟨⟨hlocal, -⟩, hnext⟩ := hwithin
    refine Or.inl ⟨h.step rfl rfl (hnext _) fun halone => ?_, rfl⟩
    rw [hstage]
    refine .skip ?_ halone
    rw [Heap.visible_within, ← hlocal]
    exact hnew
  | insert hstage hnew =>
    rw [hstage] at hwithin
    obtain ⟨⟨hlocal, hrow⟩, hnext⟩ := hwithin
    obtain ⟨hscope, htarget⟩ := hrow _ _ hnew
    refine Or.inl ⟨h.step rfl rfl ⟨hscope, htarget, hnext⟩ fun halone => ?_, rfl⟩
    rw [hstage]
    refine .insert ?_ halone
    rw [Heap.visible_within, ← hlocal]
    exact hnew
  | @place row target set next' id new hstage hlanding free hunique =>
    rw [hstage] at hwithin
    obtain ⟨hscope, htarget, hnext⟩ := hwithin
    have hfresh : ∀ r, (c.fresh, r) ∉ c.view s := fun r hr =>
      absurd (hsound.view_old hs hr) (lt_irrefl _)
    obtain ⟨hold, hnew⟩ := landing_scope hlanding hfresh hscope htarget
    refine Or.inl ⟨h.write rfl rfl (hnext _) hold (by rintro r ⟨⟩; exact hnew) fun halone => ?_, rfl⟩
    rw [hstage]
    refine .place (fun r hr => hfresh r (Heap.mem_within.mp hr).1) ?_ halone
    rw [landing_within fun r hr => (htarget r hr).1]
    exact hlanding
  | @commit out hstage =>
    refine Or.inr (Or.inl ⟨out, rfl, h.alone _ _ ?_, fun id r hr => h.outside hr⟩)
    rw [hstage]
    exact .commit
  | @rollback out hstage =>
    refine Or.inr (Or.inl ⟨out, rfl, h.alone _ _ ?_, fun _ _ _ => Iff.rfl⟩)
    rw [hstage]
    exact .rollback

end ReadCommitted
