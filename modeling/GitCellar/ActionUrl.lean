import GitCellar.Broadcast
import GitCellar.GrantGate
import GitCellar.Unicode

/-! The gate on a broadcast's `action_url`: which texts it lets through. -/

namespace GitCellar

open Unicode

def actionUrlAllowlist : List String :=
  ["gitcellar.com", "www.gitcellar.com", "status.gitcellar.com", "api.gitcellar.com"]

def httpsScheme : List Char := "https://".toList

def endsAuthority (c : Char) : Bool := c == '/' || c == '?' || c == '#'

def actionUrlAllowed (url : String) : Bool :=
  if !httpsScheme.isPrefixOf url.toList then false
  else
    let rest := url.toList.drop httpsScheme.length
    let authority := rest.takeWhile fun c => !endsAuthority c
    if authority.isEmpty then false
    else if authority.contains '@' || authority.contains ':' then false
    else
      let host := toAsciiLowercase (String.ofList authority)
      actionUrlAllowlist.any fun allowed => allowed == host

def BroadcastPayload.validateActionUrl (p : BroadcastPayload) : Except CryptoError Unit :=
  match p.actionUrl with
  | none => .ok ()
  | some url =>
    if actionUrlAllowed url then .ok ()
    else .error (.broadcast ("action_url host not in allowlist: " ++ url))

/-- Nothing, or a path, a query or a fragment. -/
def IsRemainder (rest : List Char) : Prop :=
  rest = [] ∨ ∃ c tail, rest = c :: tail ∧ (c = '/' ∨ c = '?' ∨ c = '#')

/-- An authority that is an allowlisted host in some letter case, and nothing else. -/
structure ListedHost (authority : List Char) : Prop where
  listed : toAsciiLowercase (String.ofList authority) ∈ actionUrlAllowlist
  letters : ∀ c ∈ authority, c.isAlpha = true ∨ c = '.'
  lastLetter : authority.getLast? ≠ some '.'

variable {host rest : List Char} {url : String}

theorem allowlist_letters : actionUrlAllowlist.all (fun allowed =>
    allowed.toList.all (fun c => c.isLower || c == '.') && allowed.toList.getLast? != some '.') =
      true := by
  decide +kernel

theorem isAlpha_of_asciiLower {c : Char} (h : (asciiLower c).isLower = true ∨ asciiLower c = '.') :
    c.isAlpha = true ∨ c = '.' := by
  by_cases hupper : 65 ≤ c.toNat ∧ c.toNat ≤ 90
  · have hA : 'A'.val ≤ c.val := UInt32.le_iff_toNat_le.mpr hupper.1
    have hZ : c.val ≤ 'Z'.val := UInt32.le_iff_toNat_le.mpr hupper.2
    have hisUpper : c.isUpper = true := decide_eq_true ⟨hA, hZ⟩
    exact .inl (Bool.or_eq_true_iff.mpr (.inl hisUpper))
  · rw [asciiLower, if_neg hupper] at h
    rcases h with hlower | rfl
    · exact .inl (Bool.or_eq_true_iff.mpr (.inr hlower))
    · exact .inr rfl

theorem listedHost_of_mem (h : toAsciiLowercase (String.ofList host) ∈ actionUrlAllowlist) :
    ListedHost host := by
  have hall := List.all_eq_true.mp allowlist_letters _ h
  simp only [toAsciiLowercase, String.toList_ofList, Bool.and_eq_true, bne_iff_ne, List.all_eq_true,
    Bool.or_eq_true, beq_iff_eq] at hall
  obtain ⟨hletters, hlast⟩ := hall
  refine ⟨h, ?_, ?_⟩
  · intro c hc
    exact isAlpha_of_asciiLower (hletters (asciiLower c) (List.mem_map_of_mem hc))
  · intro hdot
    apply hlast
    rw [List.getLast?_map, hdot]
    rfl

theorem ListedHost.notMem (h : ListedHost host) {c : Char} (halpha : c.isAlpha = false)
    (hdot : c ≠ '.') :
    c ∉ host := by
  intro hc
  rcases h.letters c hc with hletter | rfl
  · rw [halpha] at hletter
    cases hletter
  · exact hdot rfl

theorem ListedHost.ne_nil (h : ListedHost host) : host ≠ [] := by
  rintro rfl
  have hempty : "" ∉ actionUrlAllowlist := by decide
  exact hempty h.listed

theorem not_endsAuthority_iff {c : Char} :
    (!endsAuthority c) = true ↔ c ≠ '/' ∧ c ≠ '?' ∧ c ≠ '#' := by
  simp [endsAuthority, and_assoc]

theorem takeWhile_authority (hhost : ∀ c ∈ host, c ≠ '/' ∧ c ≠ '?' ∧ c ≠ '#')
    (hrest : IsRemainder rest) :
    (host ++ rest).takeWhile (fun c => !endsAuthority c) = host := by
  rw [List.takeWhile_append_of_pos fun c hc => not_endsAuthority_iff.mpr (hhost c hc)]
  have hstop : rest.takeWhile (fun c => !endsAuthority c) = [] := by
    rcases hrest with rfl | ⟨c, tail, rfl, hc⟩
    · rfl
    · rw [List.takeWhile_cons_of_neg]
      rintro hopen
      obtain ⟨hslash, hquery, hhash⟩ := not_endsAuthority_iff.mp hopen
      rcases hc with rfl | rfl | rfl
      · exact hslash rfl
      · exact hquery rfl
      · exact hhash rfl
  rw [hstop, List.append_nil]

theorem isRemainder_dropWhile (text : List Char) :
    IsRemainder (text.dropWhile fun c => !endsAuthority c) := by
  cases h : text.dropWhile fun c => !endsAuthority c with
  | nil => exact .inl rfl
  | cons c tail =>
    have hstop : ¬ (!endsAuthority c) = true := by
      have hhead := List.head?_dropWhile_not (fun c => !endsAuthority c) text
      rw [h] at hhead
      simpa using hhead
    rw [not_endsAuthority_iff] at hstop
    refine .inr ⟨c, tail, rfl, ?_⟩
    by_contra hne
    simp only [not_or] at hne
    exact hstop hne

/-- The gate reads the authority and nothing behind it. -/
theorem actionUrlAllowed_append (hhost : ∀ c ∈ host, c ≠ '/' ∧ c ≠ '?' ∧ c ≠ '#')
    (hrest : IsRemainder rest) (hurl : url.toList = httpsScheme ++ (host ++ rest)) :
    actionUrlAllowed url = true ↔ ListedHost host := by
  have hscheme : httpsScheme.isPrefixOf url.toList = true := by
    rw [hurl, List.isPrefixOf_iff_prefix]
    exact List.prefix_append _ _
  have hauthority : (url.toList.drop httpsScheme.length).takeWhile (fun c => !endsAuthority c) =
      host := by
    rw [hurl, List.drop_left, takeWhile_authority hhost hrest]
  simp only [actionUrlAllowed, hscheme, hauthority, Bool.not_true, Bool.false_eq_true, if_false]
  constructor
  · intro h
    by_cases hempty : host.isEmpty = true
    · rw [if_pos hempty] at h
      cases h
    · rw [if_neg hempty] at h
      by_cases hchars : (host.contains '@' || host.contains ':') = true
      · rw [if_pos hchars] at h
        cases h
      · rw [if_neg hchars, List.any_eq_true] at h
        obtain ⟨allowed, hmem, heq⟩ := h
        rw [beq_iff_eq] at heq
        exact listedHost_of_mem (heq ▸ hmem)
  · intro h
    have hat : '@' ∉ host := h.notMem rfl (by decide)
    have hcolon : ':' ∉ host := h.notMem rfl (by decide)
    rw [if_neg (by simpa using h.ne_nil), if_neg (by simp [hat, hcolon]), List.any_eq_true]
    exact ⟨_, h.listed, beq_self_eq_true _⟩

theorem ListedHost.delimiters (h : ListedHost host) : ∀ c ∈ host, c ≠ '/' ∧ c ≠ '?' ∧ c ≠ '#' := by
  have hslash : '/' ∉ host := h.notMem rfl (by decide)
  have hquery : '?' ∉ host := h.notMem rfl (by decide)
  have hhash : '#' ∉ host := h.notMem rfl (by decide)
  intro c hc
  refine ⟨?_, ?_, ?_⟩
  · rintro rfl
    exact hslash hc
  · rintro rfl
    exact hquery hc
  · rintro rfl
    exact hhash hc

theorem authority_of_allowed (h : actionUrlAllowed url = true) : ∃ host rest,
    url.toList = httpsScheme ++ (host ++ rest) ∧ ListedHost host ∧ IsRemainder rest := by
  by_cases hscheme : httpsScheme.isPrefixOf url.toList = true
  · obtain ⟨text, htext⟩ := List.isPrefixOf_iff_prefix.mp hscheme
    have hsplit : url.toList = httpsScheme ++ (text.takeWhile (fun c => !endsAuthority c) ++
        text.dropWhile fun c => !endsAuthority c) := by
      rw [List.takeWhile_append_dropWhile, htext]
    have hchars : ∀ c ∈ text.takeWhile (fun c => !endsAuthority c), c ≠ '/' ∧
        c ≠ '?' ∧ c ≠ '#' := by
      intro c hc
      exact not_endsAuthority_iff.mp (List.all_eq_true.mp List.all_takeWhile c hc)
    have hrest := isRemainder_dropWhile text
    exact ⟨_, _, hsplit, (actionUrlAllowed_append hchars hrest hsplit).mp h, hrest⟩
  · simp only [actionUrlAllowed, hscheme, Bool.not_false, if_true] at h
    cases h

/-- The gate accepts its grammar: the scheme, a listed host, a remainder. Whatever else
the authority of an accepted text could hold is refused with it. -/
theorem actionUrlAllowed_iff (url : String) :
    (actionUrlAllowed url = true ↔ ∃ host rest, url.toList = httpsScheme ++ (host ++ rest) ∧
      toAsciiLowercase (String.ofList host) ∈ actionUrlAllowlist ∧ IsRemainder rest) ∧
    (actionUrlAllowed url = true → ∀ authority rest,
      url.toList = httpsScheme ++ (authority ++ rest) →
      (∀ c ∈ authority, c ≠ '/' ∧ c ≠ '?' ∧ c ≠ '#') → IsRemainder rest →
      ListedHost authority) := by
  refine ⟨⟨?_, ?_⟩, ?_⟩
  · intro h
    obtain ⟨host, rest, hurl, hhost, hrest⟩ := authority_of_allowed h
    exact ⟨host, rest, hurl, hhost.listed, hrest⟩
  · rintro ⟨host, rest, hurl, hlisted, hrest⟩
    have hhost := listedHost_of_mem hlisted
    exact (actionUrlAllowed_append hhost.delimiters hrest hurl).mpr hhost
  · intro h authority rest hurl hchars hrest
    exact (actionUrlAllowed_append hchars hrest hurl).mp h

/-- A payload passes without a link, or with one the gate's grammar has. -/
theorem validateActionUrl_eq_ok_iff (p : BroadcastPayload) : p.validateActionUrl = .ok () ↔
    ∀ url ∈ p.actionUrl, ∃ host rest, url.toList = httpsScheme ++ (host ++ rest) ∧
      ListedHost host ∧ IsRemainder rest := by
  cases hurl : p.actionUrl with
  | none => simp [BroadcastPayload.validateActionUrl, hurl]
  | some url =>
    simp only [BroadcastPayload.validateActionUrl, hurl, Option.mem_some_iff, forall_eq']
    by_cases hallowed : actionUrlAllowed url = true
    · rw [if_pos hallowed]
      exact iff_of_true rfl (authority_of_allowed hallowed)
    · rw [if_neg hallowed]
      refine iff_of_false (by simp) ?_
      rintro ⟨host, rest, htext, hhost, hrest⟩
      exact hallowed ((actionUrlAllowed_append hhost.delimiters hrest htext).mpr hhost)

example : actionUrlAllowed "https://Status.GitCellar.com/incidents/42" = true := by decide +kernel

end GitCellar
