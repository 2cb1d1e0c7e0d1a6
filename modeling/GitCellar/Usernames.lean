import GitCellar.Bytes
import GitCellar.DebugText
import GitCellar.Paths

/-! Which names may become a directory under `users/`. -/

namespace GitCellar

open Loops Utf8

def maxUsernameLen : Nat := 39

def reservedUserDirNames : List String := ["_pending_new"]

def windowsDeviceNames : List String :=
  ["CON", "PRN", "AUX", "NUL",
    "COM0", "COM1", "COM2", "COM3", "COM4", "COM5", "COM6", "COM7", "COM8", "COM9",
    "LPT0", "LPT1", "LPT2", "LPT3", "LPT4", "LPT5", "LPT6", "LPT7", "LPT8", "LPT9"]

def invalidUsername (name why : String) : PasskeyError :=
  .other ("invalid username " ++ debugStr name ++ ": " ++ why)

def eqIgnoreAsciiCase (a b : String) : Bool :=
  a.toList.map Unicode.asciiLower == b.toList.map Unicode.asciiLower

def hasDoubleDash (name : String) : Bool := name.toList.tails.any ['-', '-'].isPrefixOf

def validateUsername (name : String) : Except PasskeyError Unit :=
  if name = "" then .error (invalidUsername name "empty")
  else if (utf8 name).length > maxUsernameLen then
    .error (invalidUsername name "longer than 39 characters")
  else if !name.toList.all (fun c => c.isAlphanum || c == '-') then
    .error (invalidUsername name "only ASCII letters, digits and '-' are allowed")
  else if name.toList.head? = some '-' ∨ name.toList.getLast? = some '-' then
    .error (invalidUsername name "must start and end with a letter or digit")
  else if hasDoubleDash name then .error (invalidUsername name "consecutive dashes")
  else if windowsDeviceNames.any (fun d => eqIgnoreAsciiCase d name) then
    .error (invalidUsername name "a reserved device name")
  else .ok ()

def validateUserDirName (name : String) : Except PasskeyError Unit :=
  if name ∈ reservedUserDirNames then .ok () else validateUsername name

def ValidName (name : String) : Prop := validateUserDirName name = .ok ()

def isNameChar (c : Char) : Bool := c.isAlphanum || c == '-' || c == '_'

variable {name : String}

theorem validateUsername_ok (h : validateUsername name = .ok ()) :
    name ≠ "" ∧ ∀ c ∈ name.toList, c.isAlphanum = true ∨ c = '-' := by
  simp only [validateUsername, ite_error_eq_ok_iff] at h
  obtain ⟨hne, _, hchars, _⟩ := h
  refine ⟨hne, ?_⟩
  intro c hc
  simp only [Bool.not_eq_true', Bool.not_eq_false, List.all_eq_true] at hchars
  simpa using hchars c hc

theorem ValidName.chars (h : ValidName name) :
    name ≠ "" ∧ ∀ c ∈ name.toList, isNameChar c = true := by
  by_cases hreserved : name ∈ reservedUserDirNames
  · obtain rfl := List.mem_singleton.mp hreserved
    have hall : "_pending_new".toList.all isNameChar = true := by decide
    exact ⟨by decide, List.all_eq_true.mp hall⟩
  · rw [ValidName, validateUserDirName, if_neg hreserved] at h
    obtain ⟨hne, hchars⟩ := validateUsername_ok h
    refine ⟨hne, ?_⟩
    intro c hc
    rcases hchars c hc with halnum | rfl
    · simp [isNameChar, halnum]
    · rfl

theorem isNameChar_ne {c d : Char} (hc : isNameChar c = true) (hd : isNameChar d = false) :
    c ≠ d := by
  rintro rfl
  rw [hc] at hd
  cases hd

/-- A checked name is one plain path component on every platform. -/
theorem ValidName.plain (P : Paths.Platform) (h : ValidName name) : Paths.Plain P name.toList := by
  obtain ⟨hne, hchars⟩ := h.chars
  have hdot : ∀ rest, name.toList ≠ '.' :: rest := by
    intro rest heq
    have hchar := hchars '.' (by rw [heq]; exact List.mem_cons_self)
    cases hchar
  apply Paths.plain_of_chars
  · intro hnil
    exact hne (String.toList_eq_nil_iff.mp hnil)
  · exact hdot []
  · exact hdot ['.']
  · intro c hc
    have hname := hchars c hc
    exact ⟨isNameChar_ne hname rfl, isNameChar_ne hname rfl, isNameChar_ne hname rfl⟩

theorem isNameChar_ascii {c : Char} (h : isNameChar c = true) : c.toNat < 128 := by
  have hranges : (decide ('A'.val ≤ c.val ∧ c.val ≤ 'Z'.val) ||
      decide ('a'.val ≤ c.val) && decide (c.val ≤ 'z'.val) ||
      decide ('0'.val ≤ c.val) && decide (c.val ≤ '9'.val) || c == '-' || c == '_') = true := h
  simp only [Bool.or_eq_true, Bool.and_eq_true, decide_eq_true_eq, beq_iff_eq,
    UInt32.le_iff_toNat_le] at hranges
  rcases hranges with (((⟨_, hle⟩ | ⟨_, hle⟩) | ⟨_, hle⟩) | rfl) | rfl
  · exact hle.trans_lt (by decide)
  · exact hle.trans_lt (by decide)
  · exact hle.trans_lt (by decide)
  · decide
  · decide

theorem ascii_nameChar_not_space :
    ∀ n < 128, isNameChar (Char.ofNat n) = true → Unicode.isWhitespaceCode n = false := by
  decide +kernel

theorem isNameChar_not_space {c : Char} (h : isNameChar c = true) :
    Unicode.isWhitespace c = false := by
  apply ascii_nameChar_not_space c.toNat (isNameChar_ascii h)
  rw [Char.ofNat_toNat]
  exact h

theorem ValidName.trim_eq (h : ValidName name) : Unicode.trim name = name :=
  Unicode.trim_of_not_space fun c hc => isNameChar_not_space (h.chars.2 c hc)

end GitCellar
