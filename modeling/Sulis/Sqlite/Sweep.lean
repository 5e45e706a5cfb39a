-- SUMMARY: Stored instants are exact and sort by their bytes, so the sweeps delete what the in-memory ones delete.
import Sulis.Escape.ByteOrder
import Sulis.Sqlite.Sessions
import Sulis.Sqlite.Tokens

/-!
# The expiry sweeps

`CleanExpired` and `DeleteExpiredTokens` compare the texts of instants, as SQLite does by
their bytes. The PostgreSQL stores send the same statements, and do the same where the
collation of the database compares bytes.
-/

namespace Sulis.Sqlite

open Relational Store Sulis.Sql

section

variable {ρ α κ : Type} [DecidableEq κ] {key : α → κ} {conflict : ρ → ρ → Bool}

/-- Two sweeps of the same rows leave the same rows, and each row goes in both or in none. -/
structure SweptAlike (enc : α → ρ) (m m' : Table key) (t' : Relation conflict) : Prop where
  left : Encodes enc m' t'
  kept : ∀ a ∈ m, enc a ∈ t'.rows ↔ a ∈ m'

theorem SweptAlike.delete {enc : α → ρ} {m : Table key} {t : Relation conflict} {p : ρ → Bool}
    {q : α → Bool} (h : Encodes enc m t) (hq : ∀ a ∈ m, q a = !p (enc a)) :
    SweptAlike enc m (m.filter q) (t.delete p) := by
  refine ⟨h.delete hq, fun a ha => ?_⟩
  rw [Table.mem_filter, hq a ha]
  exact List.mem_filter.trans (and_congr (iff_of_true (h.mem ha) ha) Iff.rfl)

end

/-- The row of a session, whatever its metadata column holds. -/
def rowWith (metadata : Session → Option String) (sess : Session) : SessionRow :=
  sessionRow sess (metadata sess)

/-- Instants of the years 0 to 9999 are read back exactly, and their texts sort by their
    bytes as they do. So the sweeps of the tables delete what those of the maps delete. -/
theorem stored_instants_exact :
    (∀ t u : ZonedTime, InRange t.instant → InRange u.instant →
      (ZonedTime.parseTime t.formatTime).map ZonedTime.instant = some t.instant ∧
      (Escape.utf8 t.formatTime < Escape.utf8 u.formatTime ↔ t.instant < u.instant)) ∧
    (∀ (metadata : Session → Option String) (s : SessionStore) (t : SessionTable) (now : Time),
      Encodes (rowWith metadata) s t → (∀ sess ∈ s, InRange sess.expiresAt) → InRange now →
      SweptAlike (rowWith metadata) s (s.cleanExpired now).2 (t.cleanExpired now).2) ∧
    (∀ (s : TokenStore) (t : TokenTable) (now : Time),
      Encodes encodeToken s t → (∀ token ∈ s, InRange token.expiresAt) → InRange now →
      SweptAlike encodeToken s (s.deleteExpiredTokens now).2 (t.deleteExpiredTokens now).2) := by
  refine ⟨fun t u ht hu => ⟨?_, ?_⟩, ?_, ?_⟩
  · rw [ZonedTime.parseTime_formatTime ht]
    rfl
  · rw [Escape.utf8_lt_iff, ZonedTime.formatTime_eq, ZonedTime.formatTime_eq,
      formatTime_lt_iff ht hu]
  · intro metadata s t now henc hrange hnow
    exact SweptAlike.delete henc
      (fun sess hsess => sessionRow_kept (metadata sess) (hrange sess hsess) hnow)
  · intro s t now henc hrange hnow
    exact SweptAlike.delete henc (fun token htoken => encodeToken_kept (hrange token htoken) hnow)

-- The first instant of the year 10000 has a text before that of the epoch.
example : formatTime 253402300800000000000 < formatTime 0 := by decide +kernel

/-! ### A sweep -/

def staleSession : Session :=
  { id := 3#128, userID := 1#128, tokenHash := "session", expiresAt := 5, createdAt := 1
    authenticatedAt := 1, method := .password, lastSeenAt := 1 }

def staleToken : Token :=
  { id := 4#128, userID := 1#128, tokenHash := "token", purpose := .magicLink, expiresAt := 5
    createdAt := 1 }

def oneSession : SessionStore := Table.empty.put staleSession

def oneToken : TokenStore := Table.empty.put staleToken

def oneSessionRow : SessionTable := ⟨[sessionRow staleSession (some "metadata")], by simp⟩

def oneTokenRow : TokenTable := ⟨[encodeToken staleToken], by simp⟩

theorem stored_instants_exact_stale :
    ((ZonedTime.parseTime (ZonedTime.formatTime ⟨5, 7200⟩)).map ZonedTime.instant = some 5 ∧
      Escape.utf8 (ZonedTime.formatTime ⟨5, 7200⟩) <
        Escape.utf8 (ZonedTime.formatTime ⟨7, -3600⟩)) ∧
    sessionRow staleSession (some "metadata") ∉ (oneSessionRow.cleanExpired 7).2.rows ∧
    encodeToken staleToken ∉ (oneTokenRow.deleteExpiredTokens 7).2.rows := by
  have hfive : InRange 5 := by unfold InRange; decide
  have hseven : InRange 7 := by unfold InRange; decide
  have hsessions : ∀ sess ∈ oneSession, InRange sess.expiresAt := by
    simpa [oneSession, staleSession] using hfive
  have htokens : ∀ token ∈ oneToken, InRange token.expiresAt := by
    simpa [oneToken, staleToken] using hfive
  obtain ⟨htimes, hsweep, hsweep'⟩ := stored_instants_exact
  have hpair := htimes ⟨5, 7200⟩ ⟨7, -3600⟩ hfive hseven
  have hswept := hsweep (fun _ => some "metadata") oneSession oneSessionRow 7 (List.Perm.refl _)
    hsessions hseven
  have hswept' := hsweep' oneToken oneTokenRow 7 (List.Perm.refl _) htokens hseven
  refine ⟨⟨hpair.1, hpair.2.mpr (by decide)⟩, fun hrow => ?_, fun hrow => ?_⟩
  · have hmem := (hswept.kept staleSession (Table.mem_put.mpr (Or.inl rfl))).mp hrow
    exact absurd (Table.mem_filter.mp hmem).2 (by decide)
  · have hmem := (hswept'.kept staleToken (Table.mem_put.mpr (Or.inl rfl))).mp hrow
    exact absurd (Table.mem_filter.mp hmem).2 (by decide)

end Sulis.Sqlite
