-- SUMMARY: The blocklist of common passwords and of the words a deployment adds.
import Sulis.Passwordcheck.Hibp

/-!
# The blocklist

`passwordcheck/blocklist.go`. The text of the embedded corpus is a parameter.
-/

namespace Sulis.Passwordcheck


/-- `strings.Lines`: every line with the line feed that ends it. -/
def linesWithEnds : Bytes → List Bytes
  | [] => []
  | b :: rest =>
    if b = 10 then [b] :: linesWithEnds rest
    else
      match linesWithEnds rest with
      | [] => [[b]]
      | line :: others => (b :: line) :: others

/-- `strings.TrimRight(line, "\r\n")` -/
def trimLineEnd (line : Bytes) : Bytes :=
  (line.reverse.dropWhile fun b => b = 13 ∨ b = 10).reverse

variable [Strings]

/-- `commonPasswords`: the entries of the corpus, in lower case. -/
def commonPasswords (commonPasswordsFile : Bytes) : List Bytes :=
  ((linesWithEnds commonPasswordsFile).map fun line => Strings.toLower (trimLineEnd line)).filter
    fun entry => entry ≠ []

structure Blocklist where
  extra : List Bytes

/-- `NewBlocklist` -/
def newBlocklist (extra : List Bytes) : Blocklist := ⟨extra.map Strings.toLower⟩

def Blocklist.check (list : Blocklist) (commonPasswordsFile password : Bytes) : Except Err Unit :=
  if password = [] then .ok ()
  else
    let folded := Strings.toLower password
    if folded ∈ list.extra then .error .compromised
    else if folded ∈ commonPasswords commonPasswordsFile then .error .compromised
    else .ok ()

/-- The password is one of the words or of the corpus once both are in lower case. -/
def Listed (extra : List Bytes) (commonPasswordsFile password : Bytes) : Prop :=
  password ≠ [] ∧ ((∃ word ∈ extra, Strings.toLower word = Strings.toLower password) ∨
    Strings.toLower password ∈ commonPasswords commonPasswordsFile)

/-- The blocklist refuses what is listed and nothing else. -/
theorem check_newBlocklist {extra : List Bytes} {commonPasswordsFile password : Bytes} :
    (Listed extra commonPasswordsFile password →
      (newBlocklist extra).check commonPasswordsFile password = .error .compromised) ∧
    (¬ Listed extra commonPasswordsFile password →
      (newBlocklist extra).check commonPasswordsFile password = .ok ()) := by
  by_cases hempty : password = []
  · exact ⟨fun h => absurd hempty h.1, fun _ => by simp [Blocklist.check, hempty]⟩
  · have hextra : Strings.toLower password ∈ (newBlocklist extra).extra ↔
        ∃ word ∈ extra, Strings.toLower word = Strings.toLower password := List.mem_map
    by_cases hword : ∃ word ∈ extra, Strings.toLower word = Strings.toLower password
    · refine ⟨fun _ => ?_, fun h => absurd ⟨hempty, .inl hword⟩ h⟩
      simp only [Blocklist.check, if_neg hempty, if_pos (hextra.mpr hword)]
    · have hmiss := fun h => hword (hextra.mp h)
      by_cases hcommon : Strings.toLower password ∈ commonPasswords commonPasswordsFile
      · refine ⟨fun _ => ?_, fun h => absurd ⟨hempty, .inr hcommon⟩ h⟩
        simp only [Blocklist.check, if_neg hempty, if_neg hmiss, if_pos hcommon]
      · refine ⟨fun h => absurd h.2 (not_or.mpr ⟨hword, hcommon⟩), fun _ => ?_⟩
        simp only [Blocklist.check, if_neg hempty, if_neg hmiss, if_neg hcommon]

end Sulis.Passwordcheck
