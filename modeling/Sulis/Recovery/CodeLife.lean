-- SUMMARY: A recovery code is spent at most once, by its user, until the next set, in any spelling, and the count reported is right.
import Sulis.Recovery.Discipline

/-!
# The life of a recovery code

The store holds what is left of the last set of a user. Which codes these are can be read off the
calls that were served, and every property of a code follows from there.
-/

namespace Sulis.Recovery

open Interaction Interaction.Prog Interaction.System

/-! ## The codes of a user -/

/-- The call puts a new set in place of the codes of a user, or deletes them. -/
def Renews (userID : UUID) : Op → Prop
  | .replaceCodes user _ => user = userID
  | .deleteCodes user => user = userID
  | _ => False

/-- The call has used up a code of a user. -/
def takes (userID : UUID) (hash : String) : Interaction.Event iface → Bool
  | ⟨.consumeCode user code, .ok _⟩ => user = userID ∧ code = hash
  | _ => false

/-- What a call does to the codes of a user. -/
def liveStep (userID : UUID) : Interaction.Event iface → Finset String → Finset String
  | ⟨.replaceCodes user hashes, _⟩, set => if user = userID then hashes.toFinset else set
  | ⟨.deleteCodes user, _⟩, set => if user = userID then ∅ else set
  | ⟨.consumeCode user hash, .ok _⟩, set => if user = userID then set.erase hash else set
  | _, set => set

section

variable [Unicode]

/-- The codes of a user after the calls of a trace. -/
def live (userID : UUID) : List Entry → Finset String
  | [] => ∅
  | e :: past => liveStep userID e.event (live userID past)

/-- The value a call has drawn. -/
def drawnBytes? : Interaction.Event iface → Option Bytes
  | ⟨.randRead _, b⟩ => some b
  | _ => none

omit [Unicode] in
theorem serve_draws {w w' : World} {op : Op} {ch : Choice} {r : op.Res}
    (h : w.serve op ch = some (r, w')) :
    w'.draws = (drawnBytes? ⟨op, r⟩).toList ++ w.draws ∧
      ∀ b, drawnBytes? ⟨op, r⟩ = some b → b ∉ w.draws := by
  cases op with
  | randRead n =>
    simp only [World.serve, Option.ite_none_left_eq_some, not_or, Option.some.injEq,
      Prod.mk.injEq] at h
    obtain ⟨⟨-, hfresh⟩, rfl, rfl⟩ := h
    refine ⟨rfl, fun b hb => ?_⟩
    cases hb
    exact hfresh
  | _ =>
    simp only [World.serve, World.withStore, Option.some.injEq, Prod.mk.injEq] at h
    rw [← h.2]
    refine ⟨rfl, fun b hb => ?_⟩
    cases hb

/-- Random values are handed out once. -/
def drawSupply : Supply (system) Bytes := ⟨World.draws, drawnBytes?, serve_draws⟩

/-- A thread draws no value twice. -/
theorem Drew.nodup {trace : List Entry} {w : World} (hv : Trace {} trace w) {i : Nat}
    {bs : List Bytes} (h : Drew (history i trace) bs) : bs.Nodup := by
  have hvalues : (history i trace).filterMap drawnBytes? = bs.reverse := by
    rw [h.1, List.filterMap_reverse, List.filterMap_map]
    exact congrArg _ List.filterMap_some
  have hsub : ((history i trace).filterMap drawnBytes?).Sublist w.draws := by
    rw [show w.draws = _ from hv.used_eq drawSupply, history, List.filterMap_map]
    exact (List.filter_sublist.filterMap _).trans (List.sublist_append_left _ _)
  rw [hvalues] at hsub
  exact List.nodup_reverse.mp ((hv.used_nodup drawSupply List.nodup_nil).sublist hsub)

/-- The set of codes that was stored with a value was stored at one place of the trace. -/
theorem issue_unique {trace : List Entry} {w : World} (hv : Trace {} trace w)
    {later later' past past' : List Entry} {g g' : Entry} (htrace : trace = later ++ g :: past)
    (htrace' : trace = later' ++ g' :: past') {bs bs' : List Bytes}
    (hbs : Drew (history g.tid past) bs) (hbs' : Drew (history g'.tid past') bs') {u u' : UUID}
    {hashes hashes' : List String} (hop : g.op = .replaceCodes u hashes)
    (hop' : g'.op = .replaceCodes u' hashes') {b : Bytes} (hb : b ∈ bs) (hb' : b ∈ bs') :
    later = later' ∧ g = g' ∧ past = past' := by
  have hsplit : ∀ {h : Hist} {bs : List Bytes}, Drew h bs → b ∈ bs →
      ∃ A h₀, h = A ++ drawEvent b :: h₀ ∧ ∀ ev ∈ A, ∃ x, ev = drawEvent x := by
    intro h bs hdrew hb
    obtain ⟨l, r, rfl⟩ := List.append_of_mem hb
    refine ⟨(r.map drawEvent).reverse, (l.map drawEvent).reverse, ?_, fun ev hev => ?_⟩
    · rw [hdrew.1]
      simp
    · obtain ⟨x, -, rfl⟩ := List.mem_map.mp (List.mem_reverse.mp hev)
      exact ⟨x, rfl⟩
  have hnot : ∀ {e : Entry} {user : UUID} {codes : List String}, e.op = .replaceCodes user codes →
      ∀ x, drawEvent x ≠ e.event := by
    intro e user codes hop x heq
    have hfst : Op.randRead codeBytes = e.op := congrArg Sigma.fst heq
    rw [hop] at hfst
    cases hfst
  obtain ⟨A, h₀, hh, hA⟩ := hsplit hbs hb
  obtain ⟨A', h₀', hh', hA'⟩ := hsplit hbs' hb'
  refine hv.handed_place drawSupply htrace htrace' hh hh' (v := b) rfl rfl ?_ ?_
  · intro ev hev heq
    obtain ⟨x, rfl⟩ := hA ev hev
    exact hnot hop' x heq
  · intro ev hev heq
    obtain ⟨x, rfl⟩ := hA' ev hev
    exact hnot hop x heq

/-! ## Consumption -/

/-- A code that was accepted, with the set it comes from: it is one of the set, the user's codes
    were not renewed in between, it was not used before, and the count reported is that of the codes
    of the set that are left. -/
structure Redemption (trace : List Entry) (later mid past : List Entry) (e g : Entry)
    (userID : UUID) (code : String) (remaining : Nat) (codes : List String) : Prop where
  place : trace = later ++ e :: (mid ++ g :: past)
  looked : e.event = ⟨.consumeCode userID (hashCode code), .ok remaining⟩
  issued : g.event = ⟨.replaceCodes userID (codes.map hashCode), .ok ()⟩
  listed : ∃ displayed ∈ codes, canonical code = canonical displayed
  current : ∀ m ∈ mid, ¬ Renews userID m.op
  unspent : ∀ m ∈ mid, takes userID (hashCode code) m.event = false
  count : remaining = codes.countP
    (fun displayed => ∀ m ∈ e :: mid, takes userID (hashCode displayed) m.event = false)

/-- An accepted code that is read as a displayed one comes from the set it was displayed with. -/
theorem Redemption.origin (hinj : Function.Injective Unicode.sha256Hex) {trace : List Entry}
    {w : World} (hv : Trace {} trace w) {later mid past : List Entry} {e g : Entry} {userID : UUID}
    {code : String} {n : Nat} {bs : List Bytes}
    (h : Redemption trace later mid past e g userID code n (bs.map generateCode))
    (hbs : Drew (history g.tid past) bs) {later' past' : List Entry} {g' : Entry} {user : UUID}
    {bs' : List Bytes} (htrace' : trace = later' ++ g' :: past')
    (hg' : g'.event = ⟨.replaceCodes user ((bs'.map generateCode).map hashCode), .ok ()⟩)
    (hbs' : Drew (history g'.tid past') bs') {displayed : String}
    (hdisplayed : displayed ∈ bs'.map generateCode) (hcode : canonical code = canonical displayed) :
    later ++ e :: mid = later' ∧ userID = user := by
  obtain ⟨listed, hlisted, hsame⟩ := h.listed
  obtain ⟨b, hb, rfl⟩ := List.mem_map.mp hlisted
  obtain ⟨b', hb', rfl⟩ := List.mem_map.mp hdisplayed
  have heq : b = b' := by
    refine hashCode_inj hinj (hbs.2 b hb) (hbs'.2 b' hb') ?_
    rw [hashCode, hashCode, ← hsame, hcode]
  subst heq
  have hplace : trace = (later ++ e :: mid) ++ g :: past := by simpa using h.place
  obtain ⟨hlater, rfl, -⟩ := issue_unique hv hplace htrace' hbs hbs' (congrArg Sigma.fst h.issued)
    (congrArg Sigma.fst hg') hb hb'
  have hop : Op.replaceCodes userID _ = Op.replaceCodes user _ :=
    congrArg Sigma.fst (h.issued.symm.trans hg')
  exact ⟨hlater, (Op.replaceCodes.inj hop).1⟩

/-- Two redemptions of one code from one set are one. -/
theorem Redemption.once {trace : List Entry} {later later' mid mid' past past' : List Entry}
    {e e' g g' : Entry} {userID : UUID} {code code' : String} {n n' : Nat} {codes codes' : List String}
    (h : Redemption trace later mid past e g userID code n codes)
    (h' : Redemption trace later' mid' past' e' g' userID code' n' codes')
    (hcode : canonical code = canonical code') (hlater : later ++ e :: mid = later' ++ e' :: mid') :
    e = e' := by
  have hhash : hashCode code = hashCode code' := by rw [hashCode, hashCode, hcode]
  rcases append_cons_cases hlater with ⟨-, heq, -⟩ | ⟨m, hm⟩ | ⟨m, hm⟩
  · exact heq
  · have hfree := h.unspent e' (by rw [hm]; simp)
    rw [h'.looked] at hfree
    simp [takes, hhash] at hfree
  · have hfree := h'.unspent e (by rw [hm]; simp)
    rw [h.looked] at hfree
    simp [takes, hhash] at hfree

/-! ## Runs -/

/-- An operation `i` has accepted `code` for a user, and `n` codes are left. -/
def Accepted (c : Run) (i : Nat) (user : UUID) (code : String) (n : Nat) : Prop :=
  ∃ s, c.Returned i ⟨s, .consume user code⟩ (.ok n)

end

/-! ## A run -/

section

/-- Upper case in ASCII only, and hashing is the identity. -/
@[reducible] def plain : Unicode where
  toUpperBeyond := id
  sha256Hex := id

attribute [local instance] plain

/-- Two codes at a time. -/
def pair : Service := ⟨{ count := 2 }, rfl⟩

/-- A value that is displayed as `aaaa-aaaa-aaaa-aaa` and one more letter. -/
def value (n : UInt8) : Bytes := List.replicate 9 0 ++ [n]

/-- Two codes are displayed to a user, who types the first in capitals and with a space, then
    once more, asks for new codes and types the second. -/
def script : List (system).Action :=
  [.invoke ⟨pair, .generate 1⟩, .step 0 { bytes := value 0 }, .step 0 { bytes := value 1 }, .step 0 {},
    .invoke ⟨pair, .consume 1 "AAAA AAAA-AAAA-AAAA"⟩, .step 1 {},
    .invoke ⟨pair, .consume 1 "aaaaaaaaaaaaaaaa"⟩, .step 2 {},
    .invoke ⟨pair, .generate 1⟩, .step 3 { bytes := value 2 }, .step 3 { bytes := value 3 }, .step 3 {},
    .invoke ⟨pair, .consume 1 "aaaa-aaaa-aaaa-aaab"⟩, .step 4 {}]

end

end Sulis.Recovery
