import Mathlib.Algebra.Order.Ring.Nat
import Mathlib.Tactic.Common

/-! White space, trimming and upper-casing of Unicode text (version 16.0). -/

namespace Unicode

def whitespaceRanges : List (Nat × Nat) :=
  [(9, 13), (32, 32), (133, 133), (160, 160), (5760, 5760), (8192, 8202), (8232, 8233),
    (8239, 8239), (8287, 8287), (12288, 12288)]

def isWhitespaceCode (n : Nat) : Bool :=
  whitespaceRanges.any fun range => Nat.ble range.1 n && Nat.ble n range.2

def isWhitespace (c : Char) : Bool := isWhitespaceCode c.toNat

/-- The code points `first`, `first + step`, …, `last`, mapped by adding
`image - first`. -/
structure CaseRun where
  first : Nat
  last : Nat
  step : Nat
  image : Nat

def CaseRun.covers (r : CaseRun) (n : Nat) : Bool :=
  Nat.ble r.first n && Nat.ble n r.last && Nat.beq ((n - r.first) % r.step) 0

def caseRuns : List CaseRun :=
  [⟨97, 122, 1, 65⟩, ⟨181, 181, 1, 924⟩, ⟨224, 246, 1, 192⟩, ⟨248, 254, 1, 216⟩, ⟨255, 255, 1,
    376⟩, ⟨257, 303, 2, 256⟩, ⟨305, 305, 1, 73⟩, ⟨307, 311, 2, 306⟩, ⟨314, 328, 2, 313⟩, ⟨331,
    375, 2, 330⟩, ⟨378, 382, 2, 377⟩, ⟨383, 383, 1, 83⟩, ⟨384, 384, 1, 579⟩, ⟨387, 389, 2, 386⟩,
    ⟨392, 392, 1, 391⟩, ⟨396, 396, 1, 395⟩, ⟨402, 402, 1, 401⟩, ⟨405, 405, 1, 502⟩, ⟨409, 409, 1,
    408⟩, ⟨410, 410, 1, 573⟩, ⟨411, 411, 1, 42972⟩, ⟨414, 414, 1, 544⟩, ⟨417, 421, 2, 416⟩, ⟨424,
    424, 1, 423⟩, ⟨429, 429, 1, 428⟩, ⟨432, 432, 1, 431⟩, ⟨436, 438, 2, 435⟩, ⟨441, 441, 1, 440⟩,
    ⟨445, 445, 1, 444⟩, ⟨447, 447, 1, 503⟩, ⟨453, 453, 1, 452⟩, ⟨454, 454, 1, 452⟩, ⟨456, 456, 1,
    455⟩, ⟨457, 457, 1, 455⟩, ⟨459, 459, 1, 458⟩, ⟨460, 460, 1, 458⟩, ⟨462, 476, 2, 461⟩, ⟨477,
    477, 1, 398⟩, ⟨479, 495, 2, 478⟩, ⟨498, 498, 1, 497⟩, ⟨499, 499, 1, 497⟩, ⟨501, 501, 1, 500⟩,
    ⟨505, 543, 2, 504⟩, ⟨547, 563, 2, 546⟩, ⟨572, 572, 1, 571⟩, ⟨575, 576, 1, 11390⟩, ⟨578, 578,
    1, 577⟩, ⟨583, 591, 2, 582⟩, ⟨592, 592, 1, 11375⟩, ⟨593, 593, 1, 11373⟩, ⟨594, 594, 1, 11376⟩,
    ⟨595, 595, 1, 385⟩, ⟨596, 596, 1, 390⟩, ⟨598, 599, 1, 393⟩, ⟨601, 601, 1, 399⟩, ⟨603, 603, 1,
    400⟩, ⟨604, 604, 1, 42923⟩, ⟨608, 608, 1, 403⟩, ⟨609, 609, 1, 42924⟩, ⟨611, 611, 1, 404⟩,
    ⟨612, 612, 1, 42955⟩, ⟨613, 613, 1, 42893⟩, ⟨614, 614, 1, 42922⟩, ⟨616, 616, 1, 407⟩, ⟨617,
    617, 1, 406⟩, ⟨618, 618, 1, 42926⟩, ⟨619, 619, 1, 11362⟩, ⟨620, 620, 1, 42925⟩, ⟨623, 623, 1,
    412⟩, ⟨625, 625, 1, 11374⟩, ⟨626, 626, 1, 413⟩, ⟨629, 629, 1, 415⟩, ⟨637, 637, 1, 11364⟩,
    ⟨640, 640, 1, 422⟩, ⟨642, 642, 1, 42949⟩, ⟨643, 643, 1, 425⟩, ⟨647, 647, 1, 42929⟩, ⟨648, 648,
    1, 430⟩, ⟨649, 649, 1, 580⟩, ⟨650, 651, 1, 433⟩, ⟨652, 652, 1, 581⟩, ⟨658, 658, 1, 439⟩, ⟨669,
    669, 1, 42930⟩, ⟨670, 670, 1, 42928⟩, ⟨837, 837, 1, 921⟩, ⟨881, 883, 2, 880⟩, ⟨887, 887, 1,
    886⟩, ⟨891, 893, 1, 1021⟩, ⟨940, 940, 1, 902⟩, ⟨941, 943, 1, 904⟩, ⟨945, 961, 1, 913⟩, ⟨962,
    962, 1, 931⟩, ⟨963, 971, 1, 931⟩, ⟨972, 972, 1, 908⟩, ⟨973, 974, 1, 910⟩, ⟨976, 976, 1, 914⟩,
    ⟨977, 977, 1, 920⟩, ⟨981, 981, 1, 934⟩, ⟨982, 982, 1, 928⟩, ⟨983, 983, 1, 975⟩, ⟨985, 1007, 2,
    984⟩, ⟨1008, 1008, 1, 922⟩, ⟨1009, 1009, 1, 929⟩, ⟨1010, 1010, 1, 1017⟩, ⟨1011, 1011, 1, 895⟩,
    ⟨1013, 1013, 1, 917⟩, ⟨1016, 1016, 1, 1015⟩, ⟨1019, 1019, 1, 1018⟩, ⟨1072, 1103, 1, 1040⟩,
    ⟨1104, 1119, 1, 1024⟩, ⟨1121, 1153, 2, 1120⟩, ⟨1163, 1215, 2, 1162⟩, ⟨1218, 1230, 2, 1217⟩,
    ⟨1231, 1231, 1, 1216⟩, ⟨1233, 1327, 2, 1232⟩, ⟨1377, 1414, 1, 1329⟩, ⟨4304, 4346, 1, 7312⟩,
    ⟨4349, 4351, 1, 7357⟩, ⟨5112, 5117, 1, 5104⟩, ⟨7296, 7296, 1, 1042⟩, ⟨7297, 7297, 1, 1044⟩,
    ⟨7298, 7298, 1, 1054⟩, ⟨7299, 7300, 1, 1057⟩, ⟨7301, 7301, 1, 1058⟩, ⟨7302, 7302, 1, 1066⟩,
    ⟨7303, 7303, 1, 1122⟩, ⟨7304, 7304, 1, 42570⟩, ⟨7306, 7306, 1, 7305⟩, ⟨7545, 7545, 1, 42877⟩,
    ⟨7549, 7549, 1, 11363⟩,
    ⟨7566, 7566, 1, 42950⟩, ⟨7681, 7829, 2, 7680⟩, ⟨7835, 7835, 1, 7776⟩, ⟨7841, 7935, 2, 7840⟩,
    ⟨7936, 7943, 1, 7944⟩, ⟨7952, 7957, 1, 7960⟩, ⟨7968, 7975, 1, 7976⟩, ⟨7984, 7991, 1, 7992⟩,
    ⟨8000, 8005, 1, 8008⟩, ⟨8017, 8023, 2, 8025⟩, ⟨8032, 8039, 1, 8040⟩, ⟨8048, 8049, 1, 8122⟩,
    ⟨8050, 8053, 1, 8136⟩, ⟨8054, 8055, 1, 8154⟩, ⟨8056, 8057, 1, 8184⟩, ⟨8058, 8059, 1, 8170⟩,
    ⟨8060, 8061, 1, 8186⟩, ⟨8112, 8113, 1, 8120⟩, ⟨8126, 8126, 1, 921⟩, ⟨8144, 8145, 1, 8152⟩,
    ⟨8160, 8161, 1, 8168⟩, ⟨8165, 8165, 1, 8172⟩, ⟨8526, 8526, 1, 8498⟩, ⟨8560, 8575, 1, 8544⟩,
    ⟨8580, 8580, 1, 8579⟩, ⟨9424, 9449, 1, 9398⟩, ⟨11312, 11359, 1, 11264⟩, ⟨11361, 11361, 1,
    11360⟩, ⟨11365, 11365, 1, 570⟩, ⟨11366, 11366, 1, 574⟩, ⟨11368, 11372, 2, 11367⟩, ⟨11379,
    11379, 1, 11378⟩, ⟨11382, 11382, 1, 11381⟩, ⟨11393, 11491, 2, 11392⟩, ⟨11500, 11502, 2,
    11499⟩, ⟨11507, 11507, 1, 11506⟩, ⟨11520, 11557, 1, 4256⟩, ⟨11559, 11559, 1, 4295⟩, ⟨11565,
    11565, 1, 4301⟩, ⟨42561, 42605, 2, 42560⟩, ⟨42625, 42651, 2, 42624⟩, ⟨42787, 42799, 2, 42786⟩,
    ⟨42803, 42863, 2, 42802⟩, ⟨42874, 42876, 2, 42873⟩, ⟨42879, 42887, 2, 42878⟩, ⟨42892, 42892,
    1, 42891⟩, ⟨42897, 42899, 2, 42896⟩, ⟨42900, 42900, 1, 42948⟩, ⟨42903, 42921, 2, 42902⟩,
    ⟨42933, 42947, 2, 42932⟩, ⟨42952, 42954, 2, 42951⟩, ⟨42957, 42957, 1, 42956⟩, ⟨42961, 42961,
    1, 42960⟩, ⟨42967, 42971, 2, 42966⟩, ⟨42998, 42998, 1, 42997⟩, ⟨43859, 43859, 1, 42931⟩,
    ⟨43888, 43967, 1, 5024⟩, ⟨65345, 65370, 1, 65313⟩, ⟨66600, 66639, 1, 66560⟩, ⟨66776, 66811, 1,
    66736⟩, ⟨66967, 67003, 2, 66928⟩, ⟨66968, 66976, 2, 66929⟩, ⟨66980, 66992, 2, 66941⟩, ⟨66996,
    67000, 2, 66957⟩, ⟨67004, 67004, 1, 66965⟩, ⟨68800, 68850, 1, 68736⟩, ⟨68976, 68997, 1,
    68944⟩, ⟨71872, 71903, 1, 71840⟩, ⟨93792, 93823, 1, 93760⟩, ⟨125218, 125251, 1, 125184⟩]

def expansions : List (Nat × List Nat) :=
  [(223, [83, 83]), (329, [700, 78]), (496, [74, 780]), (912, [921, 776, 769]), (944, [933, 776,
    769]), (1415, [1333, 1362]), (7830, [72, 817]), (7831, [84, 776]), (7832, [87, 778]), (7833,
    [89, 778]), (7834, [65, 702]), (8016, [933, 787]), (8018, [933, 787, 768]), (8020, [933, 787,
    769]), (8022, [933, 787, 834]), (8064, [7944, 921]), (8065, [7945, 921]), (8066, [7946, 921]),
    (8067, [7947, 921]), (8068, [7948, 921]), (8069, [7949, 921]), (8070, [7950, 921]), (8071,
    [7951, 921]), (8072, [7944, 921]), (8073, [7945, 921]), (8074, [7946, 921]), (8075, [7947,
    921]), (8076, [7948, 921]), (8077, [7949, 921]), (8078, [7950, 921]), (8079, [7951, 921]),
    (8080, [7976, 921]), (8081, [7977, 921]), (8082, [7978, 921]), (8083, [7979, 921]), (8084,
    [7980, 921]), (8085, [7981, 921]), (8086, [7982, 921]), (8087, [7983, 921]), (8088, [7976,
    921]), (8089, [7977, 921]), (8090, [7978, 921]), (8091, [7979, 921]), (8092, [7980, 921]),
    (8093, [7981, 921]), (8094, [7982, 921]), (8095, [7983, 921]), (8096, [8040, 921]), (8097,
    [8041, 921]), (8098, [8042, 921]), (8099, [8043, 921]), (8100, [8044, 921]), (8101, [8045,
    921]), (8102, [8046, 921]), (8103, [8047, 921]), (8104, [8040, 921]), (8105, [8041, 921]),
    (8106, [8042, 921]), (8107, [8043, 921]), (8108, [8044, 921]), (8109, [8045, 921]), (8110,
    [8046, 921]), (8111, [8047, 921]), (8114, [8122, 921]), (8115, [913, 921]), (8116, [902,
    921]), (8118, [913, 834]), (8119, [913, 834, 921]), (8124, [913, 921]), (8130, [8138, 921]),
    (8131, [919, 921]), (8132, [905, 921]), (8134, [919, 834]), (8135, [919, 834, 921]), (8140,
    [919, 921]), (8146, [921, 776, 768]), (8147, [921, 776, 769]), (8150, [921, 834]), (8151,
    [921, 776, 834]), (8162, [933, 776, 768]), (8163, [933, 776, 769]), (8164, [929, 787]), (8166,
    [933, 834]), (8167, [933, 776, 834]), (8178, [8186, 921]), (8179, [937, 921]), (8180, [911,
    921]), (8182, [937, 834]), (8183, [937, 834, 921]), (8188, [937, 921]), (64256, [70, 70]),
    (64257, [70, 73]), (64258, [70, 76]), (64259, [70, 70, 73]), (64260, [70, 70, 76]), (64261,
    [83, 84]), (64262, [83, 84]), (64275, [1348, 1350]), (64276, [1348, 1333]), (64277, [1348,
    1339]), (64278, [1358, 1350]), (64279, [1348, 1341])]

def upperCodes (n : Nat) : List Nat :=
  match expansions.find? fun e => Nat.beq e.1 n with
  | some e => e.2
  | none =>
    match caseRuns.find? fun r => r.covers n with
    | some r => [r.image + (n - r.first)]
    | none => [n]

/-- `char::to_uppercase` -/
def toUppercase (c : Char) : List Char := (upperCodes c.toNat).map Char.ofNat

/-- A code point that upper-casing and stripping white space leave alone. -/
def isSettled (n : Nat) : Bool := upperCodes n == [n] && !isWhitespaceCode n && n.isValidChar

theorem expansions_settled : ∀ e ∈ expansions, ∀ n ∈ e.2, isSettled n = true := by
  decide +kernel

def CaseRun.imageLast (r : CaseRun) : Nat := r.image + (r.last - r.first)

def CaseRun.avoids (r : CaseRun) (lo hi : Nat) : Bool :=
  Nat.blt hi r.image || Nat.blt r.imageLast lo

/-- No image of `r` is covered by `s`: the ranges are disjoint, or both go by
two and differ in parity. -/
def CaseRun.apart (r s : CaseRun) : Bool :=
  r.avoids s.first s.last ||
    (Nat.beq s.step 2 && (Nat.beq r.step 2 || Nat.beq r.first r.last) &&
      Nat.beq ((r.image + s.first) % 2) 1)

def CaseRun.isClear (r : CaseRun) : Bool :=
  caseRuns.all r.apart && expansions.all (fun e => r.avoids e.1 e.1) &&
    whitespaceRanges.all (fun range => r.avoids range.1 range.2) && r.avoids 0xD800 0xDFFF &&
    Nat.blt r.imageLast 0x110000

theorem caseRuns_clear : ∀ r ∈ caseRuns, r.isClear = true := by
  decide +kernel

theorem CaseRun.image_range {r : CaseRun} {n lo hi : Nat} (hn : r.covers n = true)
    (h : r.avoids lo hi = true) :
    ¬ (lo ≤ r.image + (n - r.first) ∧ r.image + (n - r.first) ≤ hi) := by
  simp only [covers, Bool.and_eq_true, Nat.ble_eq, Nat.beq_eq] at hn
  simp only [avoids, imageLast, Bool.or_eq_true, Nat.blt_eq] at h
  omega

theorem CaseRun.image_uncovered {r s : CaseRun} {n : Nat} (hn : r.covers n = true)
    (h : r.apart s = true) : s.covers (r.image + (n - r.first)) = false := by
  rw [Bool.eq_false_iff]
  intro hs
  simp only [apart, Bool.or_eq_true, Bool.and_eq_true, Nat.beq_eq] at h
  rcases h with havoid | ⟨⟨hstep, hr⟩, hparity⟩
  · simp only [covers, Bool.and_eq_true, Nat.ble_eq] at hs
    exact CaseRun.image_range hn havoid ⟨hs.1.1, hs.1.2⟩
  · simp only [covers, Bool.and_eq_true, Nat.ble_eq, Nat.beq_eq, hstep] at hs hn
    rcases hr with hr | hr
    · rw [hr] at hn
      omega
    · omega

theorem isSettled_iff {n : Nat} : isSettled n = true ↔
    upperCodes n = [n] ∧ isWhitespaceCode n = false ∧ n.isValidChar := by
  simp [isSettled, and_assoc]

theorem image_settled {r : CaseRun} {n : Nat} (hr : r ∈ caseRuns) (hn : r.covers n = true) :
    isSettled (r.image + (n - r.first)) = true := by
  have hclear := caseRuns_clear r hr
  simp only [CaseRun.isClear, Bool.and_eq_true, List.all_eq_true, Nat.blt_eq] at hclear
  obtain ⟨⟨⟨⟨hruns, hexpansions⟩, hspace⟩, hsurrogate⟩, hmax⟩ := hclear
  rw [isSettled_iff]
  refine ⟨?_, ?_, ?_⟩
  · have hexp : expansions.find? (fun e => Nat.beq e.1 (r.image + (n - r.first))) = none := by
      rw [List.find?_eq_none]
      intro e he heq
      have hcode := Nat.beq_eq.mp heq
      exact CaseRun.image_range hn (hexpansions e he) ⟨hcode.le, hcode.ge⟩
    have hrun : caseRuns.find? (fun s => s.covers (r.image + (n - r.first))) = none := by
      rw [List.find?_eq_none]
      intro s hs
      rw [CaseRun.image_uncovered hn (hruns s hs)]
      exact Bool.false_ne_true
    simp only [upperCodes, hexp, hrun]
  · rw [isWhitespaceCode, List.any_eq_false]
    intro range hrange
    have hout := CaseRun.image_range hn (hspace range hrange)
    simpa only [Bool.and_eq_true, Nat.ble_eq] using hout
  · have hout := CaseRun.image_range hn hsurrogate
    simp only [CaseRun.imageLast] at hmax
    simp only [CaseRun.covers, Bool.and_eq_true, Nat.ble_eq] at hn
    simp only [Nat.isValidChar]
    omega

theorem upperCodes_settled {n m : Nat} (hvalid : n.isValidChar)
    (hspace : isWhitespaceCode n = false) (hm : m ∈ upperCodes n) : isSettled m = true := by
  simp only [upperCodes] at hm
  cases hexp : expansions.find? (fun e => Nat.beq e.1 n) with
  | some e =>
    rw [hexp] at hm
    exact expansions_settled e (List.mem_of_find?_eq_some hexp) m hm
  | none =>
    cases hrun : caseRuns.find? (fun r => r.covers n) with
    | some r =>
      rw [hexp, hrun] at hm
      obtain rfl := List.mem_singleton.mp hm
      have hcovers := List.find?_some hrun
      exact image_settled (List.mem_of_find?_eq_some hrun) hcovers
    | none =>
      rw [hexp, hrun] at hm
      obtain rfl := List.mem_singleton.mp hm
      rw [isSettled_iff]
      exact ⟨by simp only [upperCodes, hexp, hrun], hspace, hvalid⟩

theorem isValidChar_toNat (c : Char) : c.toNat.isValidChar := c.valid

theorem toUppercase_settled {c d : Char} (hc : isWhitespace c = false) (hd : d ∈ toUppercase c) :
    isWhitespace d = false ∧ toUppercase d = [d] := by
  obtain ⟨m, hm, rfl⟩ := List.mem_map.mp hd
  have hsettled := upperCodes_settled (isValidChar_toNat c) hc hm
  obtain ⟨hupper, hspace, hvalid⟩ := isSettled_iff.mp hsettled
  have hcode : (Char.ofNat m).toNat = m := by
    rw [Char.ofNat, dif_pos hvalid]
    rfl
  constructor
  · rw [isWhitespace, hcode, hspace]
  · rw [toUppercase, hcode, hupper, List.map_singleton]

/-- White space stripped, the rest in upper case. -/
def stripUpper (cs : List Char) : List Char :=
  (cs.filter fun c => !isWhitespace c).flatMap toUppercase

theorem stripUpper_of_settled {cs : List Char}
    (h : ∀ c ∈ cs, isWhitespace c = false ∧ toUppercase c = [c]) : stripUpper cs = cs := by
  induction cs with
  | nil => rfl
  | cons c cs ih =>
    obtain ⟨hspace, hupper⟩ := h c List.mem_cons_self
    have hrest := ih fun d hd => h d (List.mem_cons_of_mem c hd)
    rw [stripUpper] at hrest ⊢
    rw [List.filter_cons_of_pos (by simp [hspace]), List.flatMap_cons, hupper, hrest,
      List.singleton_append]

theorem stripUpper_idem (cs : List Char) : stripUpper (stripUpper cs) = stripUpper cs := by
  apply stripUpper_of_settled
  intro d hd
  obtain ⟨c, hc, hdc⟩ := List.mem_flatMap.mp hd
  have hspace := (List.mem_filter.mp hc).2
  exact toUppercase_settled (by simpa using hspace) hdc

def asciiLower (c : Char) : Char :=
  if 65 ≤ c.toNat ∧ c.toNat ≤ 90 then Char.ofNat (c.toNat + 32) else c

/-- `str::to_ascii_lowercase` -/
def toAsciiLowercase (s : String) : String := String.ofList (s.toList.map asciiLower)

/-- `str::trim` -/
def trim (s : String) : String :=
  String.ofList ((s.toList.dropWhile isWhitespace).reverse.dropWhile isWhitespace).reverse

theorem trim_of_not_space {s : String} (h : ∀ c ∈ s.toList, isWhitespace c = false) :
    trim s = s := by
  have hdrop : ∀ cs : List Char, (∀ c ∈ cs, isWhitespace c = false) →
      cs.dropWhile isWhitespace = cs := by
    intro cs hcs
    cases cs with
    | nil => rfl
    | cons c cs => rw [List.dropWhile_cons_of_neg (by simp [hcs c List.mem_cons_self])]
  rw [trim, hdrop s.toList h, hdrop s.toList.reverse (fun c hc => h c (List.mem_reverse.mp hc)),
    List.reverse_reverse, String.ofList_toList]

theorem trim_split (s : String) : ∃ lead trail, s.toList = lead ++ (trim s).toList ++ trail ∧
    (∀ c ∈ lead, isWhitespace c = true) ∧ ∀ c ∈ trail, isWhitespace c = true := by
  let rest := s.toList.dropWhile isWhitespace
  refine ⟨s.toList.takeWhile isWhitespace,
    (rest.reverse.takeWhile isWhitespace).reverse, ?_, ?_, ?_⟩
  · have hrest : (rest.reverse.dropWhile isWhitespace).reverse ++
        (rest.reverse.takeWhile isWhitespace).reverse = rest := by
      rw [← List.reverse_append, List.takeWhile_append_dropWhile, List.reverse_reverse]
    rw [trim, String.toList_ofList, List.append_assoc, hrest, List.takeWhile_append_dropWhile]
  · intro c hc
    exact List.all_eq_true.mp List.all_takeWhile c hc
  · intro c hc
    exact List.all_eq_true.mp List.all_takeWhile c (List.mem_reverse.mp hc)

theorem dropWhile_space_append {lead rest : List Char} (h : ∀ c ∈ lead, isWhitespace c = true) :
    (lead ++ rest).dropWhile isWhitespace = rest.dropWhile isWhitespace :=
  List.dropWhile_append_of_pos h

/-- A text that white space neither begins nor ends, with white space around it. -/
theorem trim_padded {lead core trail : List Char} {first last : Char}
    (hlead : ∀ c ∈ lead, isWhitespace c = true) (htrail : ∀ c ∈ trail, isWhitespace c = true)
    (hfirst : core.head? = some first) (hlast : core.getLast? = some last)
    (hspace : isWhitespace first = false) (hspace' : isWhitespace last = false) :
    trim (String.ofList (lead ++ core ++ trail)) = String.ofList core := by
  have hkeep : ∀ (c : Char) (cs : List Char), cs.head? = some c → isWhitespace c = false →
      cs.dropWhile isWhitespace = cs := by
    intro c cs hhead hc
    cases cs with
    | nil => cases hhead
    | cons d cs =>
      obtain rfl := Option.some.inj hhead
      rw [List.dropWhile_cons_of_neg (by simp [hc])]
  have hhead : (core ++ trail).head? = some first := by
    rw [List.head?_append, hfirst, Option.some_or]
  have hback : core.reverse.head? = some last := by rw [List.head?_reverse, hlast]
  have htrail' : ∀ c ∈ trail.reverse, isWhitespace c = true := fun c hc =>
    htrail c (List.mem_reverse.mp hc)
  rw [trim, String.toList_ofList, List.append_assoc, dropWhile_space_append hlead,
    hkeep first _ hhead hspace, List.reverse_append, dropWhile_space_append htrail',
    hkeep last _ hback hspace', List.reverse_reverse]

end Unicode
