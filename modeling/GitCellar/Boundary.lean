import GitCellar.Chunking

/-! Where the boundary search can cut, and which bytes decide it. -/

namespace GitCellar

open Loops

theorem byteAt_of_lt {ε : Type} {data : Bytes} {i : Nat} (h : i < data.length) :
    (byteAt data i : Run ε UInt8) = .ok data[i] := by
  simp [byteAt, List.getElem?_eq_getElem h]

theorem clamp_of_le {ε : Type} {x lo hi : Nat} (h : lo ≤ hi) :
    (clamp x lo hi : Run ε Nat) = .ok (max lo (min x hi)) := by
  have hn : ¬ hi < lo := by omega
  simp only [clamp, hn, if_false, Except.ok.injEq]
  split
  · omega
  · split <;> omega

theorem scan_succ {gear : GearTable} {data : Bytes} {mask : UInt64} {steps i : Nat} {fp : UInt64}
    (h : i < data.length) :
    scan gear data mask (steps + 1) i fp =
      let next := (fp <<< 1) + gear.get ⟨data[i].toNat, UInt8.toNat_lt data[i]⟩
      if next &&& mask = 0 then .ok (.inl i) else scan gear data mask steps (i + 1) next := by
  simp only [scan, byteAt_of_lt h, Bind.bind, Except.bind, Pure.pure, Except.pure]

theorem scan_bounds (gear : GearTable) {data : Bytes} (mask : UInt64) {steps i : Nat} (fp : UInt64)
    (h : i + steps ≤ data.length) :
    (∃ k, scan gear data mask steps i fp = .ok (.inl k) ∧ i ≤ k ∧ k < i + steps) ∨
      ∃ out, scan gear data mask steps i fp = .ok (.inr out) := by
  induction steps generalizing i fp with
  | zero => exact .inr ⟨fp, rfl⟩
  | succ steps ih =>
    rw [scan_succ (by omega)]
    dsimp only
    split
    · exact .inl ⟨i, rfl, by omega, by omega⟩
    · rcases ih _ (by omega : i + 1 + steps ≤ data.length) with ⟨k, hk, hlo, hhi⟩ | hh
      · exact .inl ⟨k, hk, by omega, by omega⟩
      · exact .inr hh

theorem scan_append {gear : GearTable} {data : Bytes} {mask : UInt64} {steps i : Nat} {fp : UInt64}
    (more : Bytes) (h : i + steps ≤ data.length) :
    scan gear (data ++ more) mask steps i fp = scan gear data mask steps i fp := by
  induction steps generalizing i fp with
  | zero => rfl
  | succ steps ih =>
    have hi : i < data.length := by omega
    rw [scan_succ hi, scan_succ (by simp only [List.length_append]; omega)]
    simp only [List.getElem_append_left hi]
    split
    · rfl
    · exact ih (by omega)

theorem scan_cut_mono {gear : GearTable} {data : Bytes} {mask : UInt64} {steps i k : Nat}
    {fp : UInt64} (more : Nat) (h : i + steps ≤ data.length)
    (hk : scan gear data mask steps i fp = .ok (.inl k)) :
    scan gear data mask (steps + more) i fp = .ok (.inl k) := by
  induction steps generalizing i fp with
  | zero => simp [scan] at hk
  | succ steps ih =>
    rw [scan_succ (by omega)] at hk
    rw [Nat.add_right_comm, scan_succ (by omega)]
    dsimp only at hk ⊢
    by_cases hz : (fp <<< 1 + gear.get ⟨data[i].toNat, UInt8.toNat_lt data[i]⟩) &&& mask = 0
    · rw [if_pos hz] at hk ⊢
      exact hk
    · rw [if_neg hz] at hk ⊢
      exact ih (by omega) hk

/-- The two windows of a search lie inside the data. -/
theorem strict_window_le {lo n : Nat} (avg hi : Nat) (hlen : lo < n) (h : lo ≤ avg ∧ avg ≤ hi) :
    lo + (min avg (min hi n) - lo) ≤ n := by
  omega

theorem loose_window_le (avg hi n : Nat) :
    min avg (min hi n) + (min hi n - min avg (min hi n)) ≤ n := by
  omega

/-- Where a search in order ends: its cap, the end of the strict window, and the two scans. -/
theorem fastcdcBoundary_eq {gear : GearTable} {data : Bytes} {lo avg hi : Nat}
    (h1 : lo ≤ avg) (h2 : avg ≤ hi) (hlen : lo < data.length) :
    fastcdcBoundary gear data lo avg hi =
      (scan gear data (topBitsMask (targetBits avg + 1))
          (min avg (min hi data.length) - lo) lo 0 >>= fun
        | .inl i => .ok i
        | .inr fp =>
          scan gear data (topBitsMask (targetBits avg - 1))
              (min hi data.length - min avg (min hi data.length))
              (min avg (min hi data.length)) fp >>= fun
            | .inl i => .ok i
            | .inr _ => .ok (min hi data.length)) := by
  have hn : ¬ data.length ≤ lo := by omega
  have hnormal : max lo (min avg (min hi data.length)) = min avg (min hi data.length) := by omega
  simp only [fastcdcBoundary, hn, if_false, Bind.bind, Except.bind,
    clamp_of_le (show lo ≤ min hi data.length by omega), hnormal]
  rfl

theorem fastcdcBoundary_short {gear : GearTable} {data : Bytes} {lo avg hi : Nat}
    (hlen : data.length ≤ lo) : fastcdcBoundary gear data lo avg hi = .ok data.length := by
  simp [fastcdcBoundary, hlen, Pure.pure, Except.pure]

/-- The contract of the search: no panic, and a cut in `[min, min(max, |data|)]`
once the data is longer than `min`. -/
theorem fastcdcBoundary_bounds (gear : GearTable) {data : Bytes} {lo avg hi : Nat}
    (h1 : lo ≤ avg) (h2 : avg ≤ hi) (hlen : lo < data.length) :
    ∃ k, fastcdcBoundary gear data lo avg hi = .ok k ∧ lo ≤ k ∧ k ≤ min hi data.length := by
  rw [fastcdcBoundary_eq h1 h2 hlen]
  rcases scan_bounds gear (topBitsMask (targetBits avg + 1)) 0
    (strict_window_le avg hi hlen ⟨h1, h2⟩)
    with ⟨k, hk, hklo, hkhi⟩ | ⟨fp, hfp⟩
  · exact ⟨k, by rw [hk]; rfl, hklo, by omega⟩
  · rw [hfp]
    rcases scan_bounds gear (topBitsMask (targetBits avg - 1)) fp
      (loose_window_le avg hi data.length)
      with ⟨k, hk, hklo, hkhi⟩ | ⟨out, hout⟩
    · exact ⟨k, by simp only [Bind.bind, Except.bind, hk], by omega, by omega⟩
    · exact ⟨min hi data.length, by simp only [Bind.bind, Except.bind, hout], by omega, le_rfl⟩

/-- No byte makes the search cut in front of the first byte. -/
def NoEmptyCut (gear : GearTable) (lo avg : Nat) : Prop :=
  1 ≤ lo ∨ (1 ≤ avg ∧ ∀ i : Fin 256, gear.get i &&& topBitsMask (targetBits avg + 1) ≠ 0)

theorem fastcdcBoundary_pos {gear : GearTable} {data : Bytes} {lo avg hi k : Nat}
    (h1 : lo ≤ avg) (h2 : avg ≤ hi) (hcut : NoEmptyCut gear lo avg) (hd : data ≠ [])
    (hk : fastcdcBoundary gear data lo avg hi = .ok k) : 0 < k := by
  have hpos := List.length_pos_iff.mpr hd
  by_cases hlen : data.length ≤ lo
  · rw [fastcdcBoundary_short hlen] at hk
    cases hk
    exact hpos
  · obtain ⟨k', hk', hlo, _⟩ := fastcdcBoundary_bounds gear h1 h2 (by omega : lo < data.length)
    obtain rfl : k' = k := Except.ok.inj (hk'.symm.trans hk)
    rcases hcut with hlo1 | ⟨havg, hgear⟩
    · omega
    · by_contra hzero
      obtain ⟨rfl, rfl⟩ : k' = 0 ∧ lo = 0 := ⟨by omega, by omega⟩
      rw [fastcdcBoundary_eq h1 h2 hpos] at hk
      -- the first step of the strict scan does not cut, so every later cut is past it
      obtain ⟨n, hn⟩ : ∃ n, min avg (min hi data.length) - 0 = n + 1 :=
        ⟨min avg (min hi data.length) - 1, by omega⟩
      rw [hn, scan_succ hpos] at hk
      simp only [UInt64.zero_shiftLeft, UInt64.zero_add, if_neg (hgear _)] at hk
      rcases scan_bounds gear (topBitsMask (targetBits avg + 1))
        (gear.get ⟨data[0].toNat, UInt8.toNat_lt data[0]⟩) (show 1 + n ≤ data.length by omega)
        with ⟨k, hk1, hklo, _⟩ | ⟨fp, hfp⟩
      · rw [hk1] at hk
        cases hk
        omega
      · rw [hfp] at hk
        rcases scan_bounds gear (topBitsMask (targetBits avg - 1)) fp
          (loose_window_le avg hi data.length)
          with ⟨k, hk1, hklo, _⟩ | ⟨out, hout⟩
        · simp only [Bind.bind, Except.bind, hk1, Except.ok.injEq] at hk
          omega
        · simp only [Bind.bind, Except.bind, hout, Except.ok.injEq] at hk
          omega

theorem fastcdcBoundary_zero {gear : GearTable} {lo avg hi : Nat}
    (h1 : lo ≤ avg) (h2 : avg ≤ hi) (hcut : ¬ NoEmptyCut gear lo avg) :
    lo = 0 ∧ ∃ b : UInt8, fastcdcBoundary gear [b] lo avg hi = .ok 0 := by
  simp only [NoEmptyCut, not_or, not_and, not_forall, not_not] at hcut
  obtain ⟨hlo, hgear⟩ := hcut
  obtain rfl : lo = 0 := by omega
  refine ⟨rfl, ?_⟩
  by_cases havg : avg = 0
  · subst havg
    refine ⟨0, ?_⟩
    rw [fastcdcBoundary_eq h1 h2 (by simp)]
    by_cases hhi : hi = 0
    · simp [hhi, scan, Bind.bind, Except.bind]
    · have hcap : min hi [(0 : UInt8)].length = 1 := by simp only [List.length_singleton]; omega
      have hmask : topBitsMask (targetBits 0 - 1) = 0 := by decide
      rw [hcap, hmask]
      simp only [Nat.zero_min, Nat.sub_zero, scan, Bind.bind, Except.bind, byteAt,
        List.getElem?_cons_zero, UInt64.and_zero, if_true, Pure.pure, Except.pure]
  · obtain ⟨i, hi0⟩ := hgear (by omega)
    refine ⟨UInt8.ofNat i, ?_⟩
    rw [fastcdcBoundary_eq h1 h2 (by simp)]
    have hsteps : min avg (min hi [UInt8.ofNat i].length) - 0 = 0 + 1 := by
      simp only [List.length_singleton]
      omega
    have hix : (⟨(UInt8.ofNat i).toNat, UInt8.toNat_lt (UInt8.ofNat i)⟩ : Fin 256) = i := by
      apply Fin.ext
      have := i.isLt
      simp only [UInt8.toNat_ofNat']
      omega
    rw [hsteps, scan_succ (by simp)]
    simp only [List.getElem_cons_zero, UInt64.zero_shiftLeft, UInt64.zero_add, hix, hi0, if_true]
    rfl

section

variable {gear : GearTable} {data : Bytes} {lo avg hi k : Nat}

theorem fastcdcBoundary_append_short (h1 : lo ≤ avg) (h2 : avg ≤ hi) (more : Bytes)
    (hlen : data.length ≤ lo) (hmax : hi ≤ data.length) :
    fastcdcBoundary gear (data ++ more) lo avg hi = .ok data.length := by
  obtain ⟨rfl, rfl⟩ : hi = data.length ∧ lo = hi := by omega
  obtain rfl : avg = data.length := by omega
  by_cases hm : (data ++ more).length ≤ data.length
  · have hlong : (data ++ more).length = data.length + more.length := List.length_append
    rw [fastcdcBoundary_short hm]
    congr 1
    omega
  · obtain ⟨k, hk', hklo, hkhi⟩ :=
      fastcdcBoundary_bounds gear h1 h2 (by omega : data.length < (data ++ more).length)
    rw [hk']
    congr 1
    omega

/-- Both searches read the same first `max` bytes. -/
theorem fastcdcBoundary_append_full (h1 : lo ≤ avg) (h2 : avg ≤ hi) (more : Bytes)
    (hk : fastcdcBoundary gear data lo avg hi = .ok k) (hlen : lo < data.length)
    (hmax : hi ≤ data.length) : fastcdcBoundary gear (data ++ more) lo avg hi = .ok k := by
  have hlong : (data ++ more).length = data.length + more.length := List.length_append
  have hcap : min hi (data ++ more).length = min hi data.length := by omega
  rw [fastcdcBoundary_eq h1 h2 (by omega)] at hk
  rw [fastcdcBoundary_eq h1 h2 (by omega), hcap, scan_append more (by omega)]
  rcases hfirst : scan gear data (topBitsMask (targetBits avg + 1))
    (min avg (min hi data.length) - lo) lo 0 with e | (i | fp)
  · rw [hfirst] at hk
    exact hk
  · rw [hfirst] at hk
    exact hk
  · rw [hfirst] at hk
    simp only [Bind.bind, Except.bind] at hk ⊢
    rw [scan_append more (by omega)]
    exact hk

/-- The cut is found before the data ends, so a wider window finds it too. -/
theorem fastcdcBoundary_append_cut (h1 : lo ≤ avg) (h2 : avg ≤ hi) (more : Bytes)
    (hk : fastcdcBoundary gear data lo avg hi = .ok k) (hlen : lo < data.length)
    (hmax : data.length < hi) (hkl : k < data.length) :
    fastcdcBoundary gear (data ++ more) lo avg hi = .ok k := by
  have hlong : (data ++ more).length = data.length + more.length := List.length_append
  rw [fastcdcBoundary_eq h1 h2 (by omega)] at hk
  rw [fastcdcBoundary_eq h1 h2 (by omega)]
  rcases scan_bounds gear (topBitsMask (targetBits avg + 1)) 0
    (strict_window_le avg hi hlen ⟨h1, h2⟩)
    with ⟨i, hscan, hilo, hihi⟩ | ⟨fp, hscan⟩
  · rw [hscan] at hk
    obtain rfl := Except.ok.inj hk
    obtain ⟨extra, he⟩ : ∃ extra, min avg (min hi (data ++ more).length) - lo =
        (min avg (min hi data.length) - lo) + extra :=
      ⟨min avg (min hi (data ++ more).length) - lo - (min avg (min hi data.length) - lo), by omega⟩
    rw [he, scan_cut_mono extra (by rw [hlong]; omega)
      (by rw [scan_append more (by omega)]; exact hscan)]
    rfl
  · rw [hscan] at hk
    rcases scan_bounds gear (topBitsMask (targetBits avg - 1)) fp
      (loose_window_le avg hi data.length)
      with ⟨i, hloose, hilo, hihi⟩ | ⟨out, hloose⟩
    · simp only [Bind.bind, Except.bind, hloose, Except.ok.injEq] at hk
      subst hk
      -- the loose window was entered inside the data, so `avg` lies inside it
      have hstrict : min avg (min hi (data ++ more).length) = min avg (min hi data.length) := by
        omega
      rw [hstrict, scan_append more (by omega), hscan]
      obtain ⟨extra, he⟩ : ∃ extra,
          min hi (data ++ more).length - min avg (min hi data.length) =
            (min hi data.length - min avg (min hi data.length)) + extra :=
        ⟨min hi (data ++ more).length - min hi data.length, by omega⟩
      simp only [Bind.bind, Except.bind]
      rw [he, scan_cut_mono extra (by rw [hlong]; omega)
        (by rw [scan_append more (by omega)]; exact hloose)]
    · simp only [Bind.bind, Except.bind, hloose, Except.ok.injEq] at hk
      omega

/-- A cut inside the data, or of data that already reaches `max`, is the cut of
every continuation. -/
theorem fastcdcBoundary_append (h1 : lo ≤ avg) (h2 : avg ≤ hi) (more : Bytes)
    (hk : fastcdcBoundary gear data lo avg hi = .ok k)
    (hs : k < data.length ∨ hi ≤ data.length) :
    fastcdcBoundary gear (data ++ more) lo avg hi = .ok k := by
  by_cases hlen : data.length ≤ lo
  · rw [fastcdcBoundary_short hlen] at hk
    obtain rfl := Except.ok.inj hk
    exact fastcdcBoundary_append_short h1 h2 more hlen (by omega)
  · by_cases hmax : hi ≤ data.length
    · exact fastcdcBoundary_append_full h1 h2 more hk (by omega) hmax
    · exact fastcdcBoundary_append_cut h1 h2 more hk (by omega) (by omega) (by omega)

theorem fastcdcBoundary_returns (gear : GearTable) (h1 : lo ≤ avg) (h2 : avg ≤ hi) (data : Bytes) :
    ∃ k, fastcdcBoundary gear data lo avg hi = .ok k := by
  by_cases hlen : data.length ≤ lo
  · exact ⟨_, fastcdcBoundary_short hlen⟩
  · obtain ⟨k, hk, _⟩ := fastcdcBoundary_bounds gear h1 h2 (by omega : lo < data.length)
    exact ⟨k, hk⟩

/-- The first `max` bytes decide. -/
theorem fastcdcBoundary_take (gear : GearTable) (h1 : lo ≤ avg) (h2 : avg ≤ hi) (data : Bytes) :
    fastcdcBoundary gear (data.take hi) lo avg hi = fastcdcBoundary gear data lo avg hi := by
  by_cases hlen : data.length ≤ hi
  · rw [List.take_of_length_le hlen]
  · obtain ⟨k, hk⟩ := fastcdcBoundary_returns gear h1 h2 (data.take hi)
    have hfull : hi ≤ (data.take hi).length := by
      rw [List.length_take]
      omega
    have happend := fastcdcBoundary_append h1 h2 (data.drop hi) hk (.inr hfull)
    rw [List.take_append_drop] at happend
    rw [hk, happend]

end

/-- The search of any data: where it may cut, which bytes it looks at, and when no further
byte can move the cut. -/
theorem fastcdcBoundary_contract (gear : GearTable) {lo avg hi : Nat} (h1 : lo ≤ avg)
    (h2 : avg ≤ hi) (data : Bytes) :
    ∃ k, fastcdcBoundary gear data lo avg hi = .ok k ∧
      (data.length ≤ lo → k = data.length) ∧
      (lo < data.length → lo ≤ k ∧ k ≤ min hi data.length) ∧
      (∀ other : Bytes, other.take hi = data.take hi →
        fastcdcBoundary gear other lo avg hi = .ok k) ∧
      (k < data.length ∨ hi ≤ data.length →
        ∀ more, fastcdcBoundary gear (data ++ more) lo avg hi = .ok k) := by
  obtain ⟨k, hk⟩ := fastcdcBoundary_returns gear h1 h2 data
  refine ⟨k, hk, ?_, ?_, ?_, ?_⟩
  · intro hlen
    exact Except.ok.inj (hk.symm.trans (fastcdcBoundary_short hlen))
  · intro hlen
    obtain ⟨k', hk', hlo, hhi⟩ := fastcdcBoundary_bounds gear h1 h2 hlen
    obtain rfl : k' = k := Except.ok.inj (hk'.symm.trans hk)
    exact ⟨hlo, hhi⟩
  · intro other hsame
    rw [← fastcdcBoundary_take gear h1 h2 other, hsame, fastcdcBoundary_take gear h1 h2 data, hk]
  · intro hs more
    exact fastcdcBoundary_append h1 h2 more hk hs

/-- Under a table of zeros the search cuts at `min`, and a fifth byte does not move the cut. -/
theorem fastcdcBoundary_contract_zeros :
    fastcdcBoundary (Vector.replicate 256 0) ([7, 8, 9, 10] ++ [11]) 1 2 4 = .ok 1 := by
  obtain ⟨k, hk, _, _, _, hmore⟩ := fastcdcBoundary_contract (Vector.replicate 256 0)
    (show 1 ≤ 2 by decide) (show 2 ≤ 4 by decide) [7, 8, 9, 10]
  have hcut : fastcdcBoundary (Vector.replicate 256 0) [7, 8, 9, 10] 1 2 4 = .ok 1 := by
    decide +kernel
  obtain rfl : k = 1 := Except.ok.inj (hk.symm.trans hcut)
  exact hmore (.inr (by decide)) [11]

end GitCellar
