import GitCellar.AtRest

/-! The headless secret from the process's environment (`keywrap.rs`): which settings the
lookup takes for absent. -/

namespace GitCellar

open Utf8

/-- `std::env::var(..).ok()`. -/
def envVar (value : Option Bytes) : Option String :=
  value.bind fun raw => if h : IsText raw then some (toText raw h) else none

/-- `std::fs::read_to_string`, of what reading the path's bytes gives. -/
def readFileText (read : String → Except String Bytes) (path : String) : Except String String :=
  (read path).bind fun raw =>
    if h : IsText raw then .ok (toText raw h) else .error "stream did not contain valid UTF-8"

def headlessLpkFromEnv (hkdf : Hkdf) (secret file : Option Bytes)
    (read : String → Except String Bytes) :
    Except PasskeyError (Option Bytes32) :=
  headlessLpkFrom hkdf (envVar secret) (envVar file) (readFileText read)

/-- What an operating-system string says: unset and blank are the same. -/
inductive Setting where
  | absent
  | text (s : String)
  | notUnicode
  deriving DecidableEq

def settingOf (value : Option Bytes) : Setting :=
  match value with
  | none => .absent
  | some raw =>
    if h : IsText raw then
      if Unicode.trim (toText raw h) = "" then .absent else .text (toText raw h)
    else .notUnicode

def lpkOfSecret (hkdf : Hkdf) (secret : String) : Bytes32 :=
  hkdf headlessLpkHkdfSalt (utf8 secret) headlessLpkHkdfInfo

def TooShort (raw : String) : Prop := (Unicode.trim raw).length < headlessLpkMinLen

section

variable (hkdf : Hkdf) (secret file : Option Bytes) (read : String → Except String Bytes)

/-- The text that the one setting there gives, from the variable or from the file. -/
def Configured (raw : String) : Prop :=
  (settingOf secret = .text raw ∧ settingOf file = .absent) ∨
    (settingOf secret = .absent ∧ ∃ path, settingOf file = .text path ∧
      readFileText read (Unicode.trim path) = .ok raw)

/-- Only an absent configuration counts as none, a broken one is an error, and a good one
gives the key of its trimmed secret. -/
structure NeverTakenForAbsent (result : Except PasskeyError (Option Bytes32)) : Prop where
  absent : result = .ok none ↔ settingOf secret = .absent ∧ settingOf file = .absent
  conflict : settingOf secret ≠ .absent → settingOf file ≠ .absent → ∃ e, result = .error e
  unreadable : ∀ path e, settingOf secret = .absent → settingOf file = .text path →
    readFileText read (Unicode.trim path) = .error e → ∃ e, result = .error e
  short : ∀ raw, Configured secret file read raw → TooShort raw → ∃ e, result = .error e
  key : ∀ raw, Configured secret file read raw → ¬ TooShort raw →
    result = .ok (some (lpkOfSecret hkdf (Unicode.trim raw)))

/-- The file is set, and what it names does not do. -/
def FileRefused : Prop :=
  ∃ path, settingOf file = .text path ∧
    ∀ raw, readFileText read (Unicode.trim path) = .ok raw → TooShort raw

def SecretRefused : Prop := ∃ raw, settingOf secret = .text raw ∧ TooShort raw

/-- A value that is not Unicode stands beside one that is refused by itself. -/
def NotUnicodeRefused : Prop :=
  (settingOf secret = .notUnicode → FileRefused file read) ∧
    (settingOf file = .notUnicode → SecretRefused secret)

end

variable {hkdf : Hkdf} {secret file value : Option Bytes} {read : String → Except String Bytes}

def Setting.text? : Setting → Option String
  | .text s => some s
  | _ => none

theorem Setting.text?_text {s : String} : (Setting.text s).text? = some s := rfl

theorem Setting.exists_text {setting : Setting} (h : setting.text? ≠ none) :
    ∃ s, setting = .text s := by
  cases setting with
  | absent => exact absurd rfl h
  | text s => exact ⟨s, rfl⟩
  | notUnicode => exact absurd rfl h

theorem filter_envVar :
    ((envVar value).filter fun v => Unicode.trim v != "") = (settingOf value).text? := by
  cases value with
  | none => rfl
  | some raw =>
    by_cases htext : IsText raw
    · by_cases hblank : Unicode.trim (toText raw htext) = ""
      · simp [envVar, settingOf, htext, hblank, Setting.text?]
      · simp [envVar, settingOf, htext, hblank, Setting.text?]
    · simp [envVar, settingOf, htext, Setting.text?]

theorem headlessLpkOf_short {raw origin : String} (h : TooShort raw) :
    ∃ e, headlessLpkOf hkdf raw origin = .error e := by
  rw [headlessLpkOf]
  exact ⟨_, if_pos h⟩

theorem headlessLpkOf_long {raw origin : String} (h : ¬ TooShort raw) :
    headlessLpkOf hkdf raw origin = .ok (some (lpkOfSecret hkdf (Unicode.trim raw))) := by
  rw [headlessLpkOf]
  exact if_neg h

theorem fromEnv_none (hs : (settingOf secret).text? = none) (hf : (settingOf file).text? = none) :
    headlessLpkFromEnv hkdf secret file read = .ok none := by
  simp only [headlessLpkFromEnv, headlessLpkFrom, filter_envVar, hs, hf]

theorem fromEnv_both {s path : String} (hs : settingOf secret = .text s)
    (hf : settingOf file = .text path) :
    ∃ e, headlessLpkFromEnv hkdf secret file read = .error e := by
  simp only [headlessLpkFromEnv, headlessLpkFrom, filter_envVar, hs, hf, Setting.text?_text]
  exact ⟨_, rfl⟩

theorem fromEnv_secret {s : String} (hs : settingOf secret = .text s)
    (hf : (settingOf file).text? = none) :
    headlessLpkFromEnv hkdf secret file read = headlessLpkOf hkdf s headlessLpkEnv := by
  simp only [headlessLpkFromEnv, headlessLpkFrom, filter_envVar, hs, hf, Setting.text?_text]

theorem fromEnv_unreadable {path e : String} (hs : (settingOf secret).text? = none)
    (hf : settingOf file = .text path) (hread : readFileText read (Unicode.trim path) = .error e) :
    ∃ e, headlessLpkFromEnv hkdf secret file read = .error e := by
  simp only [headlessLpkFromEnv, headlessLpkFrom, filter_envVar, hs, hf, Setting.text?_text, hread]
  exact ⟨_, rfl⟩

theorem fromEnv_file {path raw : String} (hs : (settingOf secret).text? = none)
    (hf : settingOf file = .text path) (hread : readFileText read (Unicode.trim path) = .ok raw) :
    headlessLpkFromEnv hkdf secret file read =
      headlessLpkOf hkdf raw (headlessLpkFileEnv ++ " (" ++ Unicode.trim path ++ ")") := by
  simp only [headlessLpkFromEnv, headlessLpkFrom, filter_envVar, hs, hf, Setting.text?_text, hread]

theorem error_of_secretRefused (hf : (settingOf file).text? = none) (h : SecretRefused secret) :
    ∃ e, headlessLpkFromEnv hkdf secret file read = .error e := by
  obtain ⟨s, hs, hshort⟩ := h
  rw [fromEnv_secret hs hf]
  exact headlessLpkOf_short hshort

theorem error_of_fileRefused (hs : (settingOf secret).text? = none) (h : FileRefused file read) :
    ∃ e, headlessLpkFromEnv hkdf secret file read = .error e := by
  obtain ⟨path, hf, hshort⟩ := h
  cases hread : readFileText read (Unicode.trim path) with
  | error e => exact fromEnv_unreadable hs hf hread
  | ok raw =>
    rw [fromEnv_file hs hf hread]
    exact headlessLpkOf_short (hshort raw hread)

theorem fromEnv_configured {raw : String} (h : Configured secret file read raw) :
    ∃ origin, headlessLpkFromEnv hkdf secret file read = headlessLpkOf hkdf raw origin := by
  rcases h with ⟨hs, hf⟩ | ⟨hs, path, hf, hread⟩
  · exact ⟨_, fromEnv_secret hs (by rw [hf]; rfl)⟩
  · exact ⟨_, fromEnv_file (by rw [hs]; rfl) hf hread⟩

theorem headlessLpkOf_ne_none {raw origin : String} : headlessLpkOf hkdf raw origin ≠ .ok none := by
  by_cases hshort : TooShort raw
  · obtain ⟨e, he⟩ := @headlessLpkOf_short hkdf raw origin hshort
    simp [he]
  · simp [headlessLpkOf_long hshort]

theorem fromEnv_conflict (h : NotUnicodeRefused secret file read) (hs : settingOf secret ≠ .absent)
    (hf : settingOf file ≠ .absent) : ∃ e, headlessLpkFromEnv hkdf secret file read = .error e := by
  cases hsecret : settingOf secret with
  | absent => exact absurd hsecret hs
  | notUnicode => exact error_of_fileRefused (by rw [hsecret]; rfl) (h.1 hsecret)
  | text s =>
    cases hfile : settingOf file with
    | absent => exact absurd hfile hf
    | notUnicode => exact error_of_secretRefused (by rw [hfile]; rfl) (h.2 hfile)
    | text path => exact fromEnv_both hsecret hfile

theorem fromEnv_ne_none_of_file (h : NotUnicodeRefused secret file read)
    (hs : settingOf secret = .absent) (hf : settingOf file ≠ .absent) :
    headlessLpkFromEnv hkdf secret file read ≠ .ok none := by
  have hnone : (settingOf secret).text? = none := by rw [hs]; rfl
  cases hfile : settingOf file with
  | absent => exact absurd hfile hf
  | notUnicode =>
    obtain ⟨s, hsecret, _⟩ := h.2 hfile
    rw [hs] at hsecret
    cases hsecret
  | text path =>
    cases hread : readFileText read (Unicode.trim path) with
    | error e =>
      obtain ⟨e', he⟩ := @fromEnv_unreadable hkdf _ _ _ path e hnone hfile hread
      simp [he]
    | ok raw =>
      rw [fromEnv_file hnone hfile hread]
      exact headlessLpkOf_ne_none

theorem fromEnv_ne_none_of_secret (h : NotUnicodeRefused secret file read)
    (hs : settingOf secret ≠ .absent) (hf : settingOf file = .absent) :
    headlessLpkFromEnv hkdf secret file read ≠ .ok none := by
  cases hsecret : settingOf secret with
  | absent => exact absurd hsecret hs
  | notUnicode =>
    obtain ⟨path, hfile, _⟩ := h.1 hsecret
    rw [hf] at hfile
    cases hfile
  | text s =>
    rw [fromEnv_secret hsecret (by rw [hf]; rfl)]
    exact headlessLpkOf_ne_none

theorem fromEnv_eq_none_iff (h : NotUnicodeRefused secret file read) :
    headlessLpkFromEnv hkdf secret file read = .ok none ↔
      settingOf secret = .absent ∧ settingOf file = .absent := by
  constructor
  · intro hnone
    by_cases hs : settingOf secret = .absent
    · by_cases hf : settingOf file = .absent
      · exact ⟨hs, hf⟩
      · exact absurd hnone (fromEnv_ne_none_of_file h hs hf)
    · by_cases hf : settingOf file = .absent
      · exact absurd hnone (fromEnv_ne_none_of_secret h hs hf)
      · obtain ⟨e, he⟩ := @fromEnv_conflict hkdf _ _ _ h hs hf
        rw [he] at hnone
        cases hnone
  · rintro ⟨hs, hf⟩
    exact fromEnv_none (by rw [hs]; rfl) (by rw [hf]; rfl)

section

variable (h : NeverTakenForAbsent hkdf secret file read (headlessLpkFromEnv hkdf secret file read))

include h

/-- A broken value counts for nothing, and what the other one gives is the answer. -/
theorem NeverTakenForAbsent.absent_of_none (hs : (settingOf secret).text? = none)
    (hf : (settingOf file).text? = none) : settingOf secret = .absent ∧ settingOf file = .absent :=
  h.absent.mp (fromEnv_none hs hf)

theorem NeverTakenForAbsent.fileRefused (hs : settingOf secret = .notUnicode) :
    FileRefused file read := by
  have hnone : (settingOf secret).text? = none := by rw [hs]; rfl
  have hbroken : (settingOf file).text? ≠ none := by
    intro hf
    have habsent := (h.absent_of_none hnone hf).1
    rw [hs] at habsent
    cases habsent
  obtain ⟨path, hfile⟩ := Setting.exists_text hbroken
  refine ⟨path, hfile, ?_⟩
  intro raw hread
  by_contra hlong
  obtain ⟨e, he⟩ := h.conflict (by simp [hs]) (by simp [hfile])
  rw [fromEnv_file hnone hfile hread, headlessLpkOf_long hlong] at he
  cases he

theorem NeverTakenForAbsent.secretRefused (hf : settingOf file = .notUnicode) :
    SecretRefused secret := by
  have hnone : (settingOf file).text? = none := by rw [hf]; rfl
  have hbroken : (settingOf secret).text? ≠ none := by
    intro hs
    have habsent := (h.absent_of_none hs hnone).2
    rw [hf] at habsent
    cases habsent
  obtain ⟨s, hsecret⟩ := Setting.exists_text hbroken
  refine ⟨s, hsecret, ?_⟩
  by_contra hlong
  obtain ⟨e, he⟩ := h.conflict (by simp [hsecret]) (by simp [hf])
  rw [fromEnv_secret hsecret hnone, headlessLpkOf_long hlong] at he
  cases he

end

theorem neverTakenForAbsent_of_refused (h : NotUnicodeRefused secret file read) :
    NeverTakenForAbsent hkdf secret file read (headlessLpkFromEnv hkdf secret file read) where
  absent := fromEnv_eq_none_iff h
  conflict := fromEnv_conflict h
  unreadable path e hs hf hread := fromEnv_unreadable (by rw [hs]; rfl) hf hread
  short raw hraw hshort := by
    obtain ⟨origin, heq⟩ := @fromEnv_configured hkdf _ _ _ raw hraw
    rw [heq]
    exact headlessLpkOf_short hshort
  key raw hraw hlong := by
    obtain ⟨origin, heq⟩ := @fromEnv_configured hkdf _ _ _ raw hraw
    rw [heq]
    exact headlessLpkOf_long hlong

/-- The lookup keeps to the rule exactly where a value that is not Unicode changes nothing:
it stands beside one that is refused by itself. -/
theorem neverTakenForAbsent_iff (hkdf : Hkdf) (secret file : Option Bytes)
    (read : String → Except String Bytes) :
    NeverTakenForAbsent hkdf secret file read (headlessLpkFromEnv hkdf secret file read) ↔
      NotUnicodeRefused secret file read := by
  constructor
  · intro h
    exact ⟨h.fileRefused, h.secretRefused⟩
  · exact neverTakenForAbsent_of_refused

/-- A secret that is not Unicode, and nothing else set, passes for no configuration. -/
theorem brokenSecret_absent :
    headlessLpkFromEnv (fun _ _ _ => filled 0) (some [255]) none (fun _ => .ok []) =
      .ok none ∧
    ¬ NeverTakenForAbsent (fun _ _ _ => filled 0) (some [255]) none (fun _ => .ok [])
      (headlessLpkFromEnv (fun _ _ _ => filled 0) (some [255]) none fun _ => .ok []) := by
  have hnone : headlessLpkFromEnv (fun _ _ _ => filled 0) (some [255]) none (fun _ => .ok []) =
      .ok none := by
    decide +kernel
  have hset : settingOf (some [255]) = .notUnicode := by decide +kernel
  refine ⟨hnone, ?_⟩
  intro h
  have habsent := (h.absent.mp hnone).1
  rw [hset] at habsent
  cases habsent

end GitCellar
