import MtProxy.MiddleProxy.ConfigUpdater
import MtProxy.Transport.ProxyProtocol
import MtProxy.Config.Includes
import Mathlib.Data.List.TakeWhile

/-! `fetch_proxy_config`: the text that lists the Middle-Ends of the DCs, line by line.

        default 2;                              default  2
        proxy_for 1 149.154.175.50:8888;   ──▶        1  149.154.175.50:8888
        proxy_for 2 [2001:67c::d]:80;                 2  2001:67c::d port 80, 91.108.4.195:8888
        proxy_for 2 91.108.4.195:8888;

    Other lines are passed over. The addresses of a DC keep their order, and the text that lists some is
    read back as these. -/

namespace MtProxy.MiddleProxy.ConfigText
open Schemes Network Transport
open Config.Includes (Line lines linesFrom endLine unlines unlines_cons stripPrefix)
open Transport.ProxyProtocolV1Builder (displayPort)

def proxyForWord : List Char := ['p', 'r', 'o', 'x', 'y', '_', 'f', 'o', 'r']

def defaultWord : List Char := ['d', 'e', 'f', 'a', 'u', 'l', 't']

/-- `str::parse::<i32>`. -/
def parseI32 (s : List Char) : Option ℤ :=
  let (negative, digits) := match s with
    | '+' :: rest => (false, rest)
    | '-' :: rest => (true, rest)
    | _ => (false, s)
  if digits ≠ [] ∧ digits.all Char.isDigit then
    let n : ℕ := digits.foldl (fun n c => 10 * n + (c.toNat - '0'.toNat)) 0
    let value : ℤ := if negative then -n else n
    if -2 ^ 31 ≤ value ∧ value < 2 ^ 31 then some value else none
  else none

/-- What stands before and behind the last one of a character. -/
def splitLast (c : Char) (s : List Char) : Option (List Char × List Char) :=
  match s.reverse.span (· ≠ c) with
  | (_, []) => none
  | (after, _ :: before) => some (before.reverse, after.reverse)

def trimStartMatches (p : List Char) : ℕ → List Char → List Char
  | 0, s => s
  | left + 1, s => match stripPrefix p s with
    | some rest => trimStartMatches p left rest
    | none => s

def trimEndMatches (c : Char) (s : List Char) : List Char := (s.reverse.dropWhile (· = c)).reverse

section
variable (text : IpText)

def parseAddr (host port : List Char) : Option SocketAddr :=
  (text.parse host).bind fun ip => (parseU16 port).map fun port => ⟨ip, port⟩

def parseHostPort (s : List Char) : Option SocketAddr :=
  match splitLast ']' s with
  | some ('[' :: host, ':' :: port) => parseAddr text host port
  | _ => (splitLast ':' s).bind fun (host, port) => parseAddr text host port

def parseProxyLine (line : Line) : Option (ℤ × SocketAddr) :=
  let trimmed := trim line
  if proxyForWord.isPrefixOf trimmed then
    match words isWhitespace (trim (trimStartMatches proxyForWord trimmed.length trimmed)) with
    | dcStr :: rest :: _ => (parseI32 dcStr).bind fun dc =>
        (parseHostPort text (trimEndMatches ';' rest)).map fun addr => (dc, addr)
    | _ => none
  else none

def parseDefaultLine (line : Line) : Option ℤ :=
  (stripPrefix defaultWord (trim line)).bind fun rest => parseI32 (trimEndMatches ';' (trim rest))

/-- `map.entry(dc).or_default().push((ip, port))` -/
def pushEndpoint (map : EndpointMap) (dc : ℤ) (addr : SocketAddr) : EndpointMap :=
  map.insert dc ((map.lookup dc).getD [] ++ [addr])

def proxyForRound (acc : EndpointMap × UInt32) (line : Line) : EndpointMap × UInt32 :=
  match parseProxyLine text line with
  | some (dc, addr) =>
    (pushEndpoint acc.1 dc addr, if acc.2 = UInt32.ofNat (2 ^ 32 - 1) then acc.2 else acc.2 + 1)
  | none => acc

/-- What `fetch_proxy_config` makes of the text and the status of the answer. -/
def parseProxyConfig (body : List Char) (httpStatus : UInt16) : ProxyConfigData :=
  let (map, proxyForLines) := (lines body).foldl (proxyForRound text) (∅, 0)
  ⟨map, (lines body).findSome? parseDefaultLine, httpStatus, proxyForLines⟩

end

/-! ### Texts -/

def displayI32 : ℤ → List Char
  | .ofNat n => Nat.toDigits 10 n
  | .negSucc n => '-' :: Nat.toDigits 10 (n + 1)

inductive Item where
  | proxyFor (dc : ℤ) (addr : SocketAddr) (bracketed : Bool)
  | default (dc : ℤ)
  | other (line : Line)

def displayAddr (text : IpText) (addr : SocketAddr) (bracketed : Bool) : List Char :=
  (if bracketed then '[' :: text.display addr.ip ++ [']'] else text.display addr.ip) ++
    ':' :: displayPort addr.port

def Item.line (text : IpText) : Item → Line
  | .proxyFor dc addr bracketed => proxyForWord ++
      ' ' :: (displayI32 dc ++ ' ' :: (displayAddr text addr bracketed ++ [';']))
  | .default dc => defaultWord ++ ' ' :: (displayI32 dc ++ [';'])
  | .other line => line

def IsI32 (n : ℤ) : Prop := -2 ^ 31 ≤ n ∧ n < 2 ^ 31

/-- The text of an address has no characters of its own that the parser looks for, except for colons. -/
structure Addressable (text : IpText) (ip : IpAddr) : Prop where
  faithful : text.Faithful ip
  plain : ∀ c ∈ text.display ip, c ≠ '[' ∧ c ≠ ']'

def Item.WellFormed (text : IpText) : Item → Prop
  | .proxyFor dc addr _ => IsI32 dc ∧ Addressable text addr.ip
  | .default dc => IsI32 dc
  | .other line => '\n' ∉ line ∧ line.getLast? ≠ some '\r' ∧
      proxyForWord.isPrefixOf (trim line) = false ∧ defaultWord.isPrefixOf (trim line) = false

/-- The addresses listed for a DC. -/
def endpointsOf (dc : ℤ) (items : List Item) : List SocketAddr :=
  items.filterMap fun
    | .proxyFor dc' addr _ => if dc' = dc then some addr else none
    | _ => none

def Item.default? : Item → Option ℤ
  | .default dc => some dc
  | _ => none

def Item.isProxyFor : Item → Bool
  | .proxyFor .. => true
  | _ => false

section
variable {text : IpText} {s : List Char} {c : Char}

/-! ### Numbers -/

theorem displayI32_chars (n : ℤ) : ∀ c ∈ displayI32 n, c = '-' ∨ c.isDigit = true := by
  intro c hc
  cases n with
  | ofNat n => exact .inr (Nat.isDigit_of_mem_toDigits (by decide) (by decide) hc)
  | negSucc n =>
    rcases List.mem_cons.mp hc with rfl | hc
    · exact .inl rfl
    · exact .inr (Nat.isDigit_of_mem_toDigits (by decide) (by decide) hc)

theorem toDigits_head {n : ℕ} {rest : List Char} (h : c.isDigit = false) :
    Nat.toDigits 10 n ≠ c :: rest := by
  intro heq
  have hdigit := Nat.isDigit_of_mem_toDigits (b := 10) (n := n) (c := c) (by decide) (by decide)
    (by rw [heq]; exact List.mem_cons_self)
  rw [h] at hdigit
  cases hdigit

theorem all_toDigits (n : ℕ) : (Nat.toDigits 10 n).all Char.isDigit = true :=
  List.all_eq_true.mpr fun _ hc => Nat.isDigit_of_mem_toDigits (by decide) (by decide) hc

theorem value_toDigits (n : ℕ) :
    (Nat.toDigits 10 n).foldl (fun n c => 10 * n + (c.toNat - '0'.toNat)) 0 = n :=
  Nat.ofDigitChars_ten_toDigits

theorem parseI32_displayI32 {n : ℤ} (h : IsI32 n) : parseI32 (displayI32 n) = some n := by
  cases n with
  | ofNat n =>
    have hplus : ∀ rest, displayI32 (.ofNat n) ≠ '+' :: rest := fun rest => toDigits_head rfl
    have hminus : ∀ rest, displayI32 (.ofNat n) ≠ '-' :: rest := fun rest => toDigits_head rfl
    unfold parseI32
    split
    rename_i negative digits hsign
    split at hsign
    · rename_i rest heq
      exact absurd heq (hplus rest)
    · rename_i rest heq
      exact absurd heq (hminus rest)
    · obtain ⟨rfl, rfl⟩ := Prod.mk.inj hsign
      rw [if_pos ⟨Nat.toDigits_ne_nil, all_toDigits n⟩]
      simp only [displayI32, value_toDigits]
      exact if_pos h
  | negSucc n =>
    simp only [parseI32, displayI32]
    rw [if_pos ⟨Nat.toDigits_ne_nil, all_toDigits (n + 1)⟩]
    simp only [value_toDigits]
    exact if_pos h

/-! ### Pieces of a line -/

/-- Neither white space nor a character beyond ASCII. -/
def Visible (s : List Char) : Prop := ∀ c ∈ s, 0x21 ≤ c.toNat ∧ c.toNat ≤ 0x7e

theorem visible_of_digit (h : c.isDigit = true) : 0x30 ≤ c.toNat ∧ c.toNat ≤ 0x39 := by
  simp only [Char.isDigit, Bool.and_eq_true, decide_eq_true_eq, UInt32.le_iff_toNat_le] at h
  exact h

theorem ne_of_digit {d : Char} (hc : c.isDigit = true) (hd : d.isDigit = false) : c ≠ d := by
  rintro rfl
  rw [hc] at hd
  cases hd

theorem Visible.append {t : List Char} (hs : Visible s) (ht : Visible t) : Visible (s ++ t) :=
  fun c hc => (List.mem_append.mp hc).elim (hs c) (ht c)

theorem Visible.cons (hc : 0x21 ≤ c.toNat ∧ c.toNat ≤ 0x7e) (hs : Visible s) : Visible (c :: s) :=
  List.forall_mem_cons.mpr ⟨hc, hs⟩

theorem visible_displayI32 (n : ℤ) : Visible (displayI32 n) := by
  intro c hc
  rcases displayI32_chars n c hc with rfl | hdigit
  · decide
  · have hvisible := visible_of_digit hdigit
    omega

theorem displayI32_ne_nil (n : ℤ) : displayI32 n ≠ [] := by
  cases n with
  | ofNat n => exact Nat.toDigits_ne_nil
  | negSucc n => exact List.cons_ne_nil _ _

theorem visible_displayAddr {addr : SocketAddr} (h : Addressable text addr.ip) (bracketed : Bool) :
    Visible (displayAddr text addr bracketed) := by
  have hport : Visible (':' :: displayPort addr.port) :=
    Visible.cons (by decide) (displayPort_visible addr.port)
  refine Visible.append ?_ hport
  split
  · exact Visible.cons (by decide) (Visible.append h.faithful.visible (Visible.cons (by decide) nofun))
  · exact h.faithful.visible

theorem dropWhile_head {p : Char → Bool} (h : ∀ c ∈ s.head?, p c = false) : s.dropWhile p = s := by
  cases s with
  | nil => rfl
  | cons c s => exact List.dropWhile_cons_of_neg (by simp [h c rfl])

theorem trim_self (hhead : ∀ c ∈ s.head?, isWhitespace c = false)
    (hlast : ∀ c ∈ s.getLast?, isWhitespace c = false) : trim s = s := by
  unfold trim
  rw [dropWhile_head hhead, dropWhile_head (by rwa [List.head?_reverse]), List.reverse_reverse]

theorem trim_space (s : List Char) : trim (' ' :: s) = trim s := by
  unfold trim
  rw [List.dropWhile_cons_of_pos (by decide)]

/-- A piece that begins with something visible and ends with a semicolon. -/
theorem trim_piece {d : Char} (hd : 0x21 ≤ d.toNat ∧ d.toNat ≤ 0x7e) (s : List Char) :
    trim (d :: (s ++ [';'])) = d :: (s ++ [';']) := by
  refine trim_self (fun c hc => ?_) (fun c hc => ?_)
  · obtain rfl : d = c := by simpa using hc
    exact isWhitespace_visible hd
  · rw [← List.cons_append, List.getLast?_append_of_ne_nil _ (List.cons_ne_nil _ _)] at hc
    obtain rfl : ';' = c := by simpa using hc
    decide

theorem trim_visible {t : List Char} (ht : Visible t) (hne : t ≠ []) (s : List Char) :
    trim (t ++ s ++ [';']) = t ++ s ++ [';'] := by
  obtain ⟨d, t, rfl⟩ := List.exists_cons_of_ne_nil hne
  exact trim_piece (ht d List.mem_cons_self) (t ++ s)

theorem trimEndMatches_append (h : ∀ d ∈ s.getLast?, d ≠ c) : trimEndMatches c (s ++ [c]) = s := by
  unfold trimEndMatches
  rw [List.reverse_append, List.reverse_singleton, List.singleton_append,
    List.dropWhile_cons_of_pos (by simp), dropWhile_head, List.reverse_reverse]
  rw [List.head?_reverse]
  exact fun d hd => by simpa using h d hd

theorem stripPrefix_append (p s : List Char) : stripPrefix p (p ++ s) = some s := by
  unfold stripPrefix
  rw [if_pos (List.isPrefixOf_iff_prefix.mpr (List.prefix_append p s)), List.drop_left]

theorem trimStartMatches_append {p : List Char} {left : ℕ} (hleft : 0 < left)
    (hs : p.isPrefixOf s = false) : trimStartMatches p left (p ++ s) = s := by
  obtain ⟨left, rfl⟩ := Nat.exists_eq_succ_of_ne_zero hleft.ne'
  rw [trimStartMatches, stripPrefix_append]
  cases left with
  | zero => rfl
  | succ left => simp [trimStartMatches, stripPrefix, hs]

theorem splitLast_append {after : List Char} (h : c ∉ after) (before : List Char) :
    splitLast c (before ++ c :: after) = some (before, after) := by
  have hrev : (before ++ c :: after).reverse = after.reverse ++ c :: before.reverse := by simp
  have hafter : ∀ d ∈ after.reverse, decide (d ≠ c) = true := by
    intro d hd
    rw [List.mem_reverse] at hd
    exact decide_eq_true fun heq => h (heq ▸ hd)
  unfold splitLast
  rw [hrev, List.span_eq_takeWhile_dropWhile, List.takeWhile_append_of_pos hafter,
    List.dropWhile_append_of_pos hafter]
  simp

theorem splitLast_none (h : c ∉ s) : splitLast c s = none := by
  have hall : ∀ d ∈ s.reverse, decide (d ≠ c) = true := by
    intro d hd
    rw [List.mem_reverse] at hd
    exact decide_eq_true fun heq => h (heq ▸ hd)
  unfold splitLast
  rw [List.span_eq_takeWhile_dropWhile, List.dropWhile_eq_nil_iff.mpr hall]

/-! ### Lines -/

theorem parseAddr_display {addr : SocketAddr} (h : Addressable text addr.ip) :
    parseAddr text (text.display addr.ip) (displayPort addr.port) = some addr := by
  unfold parseAddr
  rw [h.faithful.parse_display, parseU16_displayPort]
  rfl

theorem parseHostPort_displayAddr {addr : SocketAddr} (h : Addressable text addr.ip)
    (bracketed : Bool) : parseHostPort text (displayAddr text addr bracketed) = some addr := by
  have hport : ∀ d : Char, d.isDigit = false → d ∉ displayPort addr.port :=
    fun d hd hmem => ne_of_digit (displayPort_digits _ d hmem) hd rfl
  have hbracket : ']' ∉ ':' :: displayPort addr.port := by
    rw [List.mem_cons]
    exact fun hmem => hmem.elim (by decide) (hport ']' rfl)
  unfold parseHostPort
  cases bracketed with
  | true =>
    have hsplit := splitLast_append hbracket ('[' :: text.display addr.ip)
    have hdisplay : displayAddr text addr true =
        ('[' :: text.display addr.ip) ++ ']' :: ':' :: displayPort addr.port := by
      simp [displayAddr]
    rw [hdisplay, hsplit]
    exact parseAddr_display h
  | false =>
    have hdisplay : displayAddr text addr false =
        text.display addr.ip ++ ':' :: displayPort addr.port := rfl
    have hnone : splitLast ']' (displayAddr text addr false) = none := by
      refine splitLast_none fun hmem => ?_
      rcases List.mem_append.mp hmem with hmem | hmem
      · exact (h.plain ']' hmem).2 rfl
      · exact hbracket hmem
    rw [hnone, hdisplay, splitLast_append (hport ':' rfl)]
    exact parseAddr_display h

theorem getLast_displayAddr (addr : SocketAddr) (bracketed : Bool) :
    ∀ d ∈ (displayAddr text addr bracketed).getLast?, d ≠ ';' := by
  intro d hd
  unfold displayAddr at hd
  rw [List.getLast?_append_of_ne_nil _ (List.cons_ne_nil _ _)] at hd
  rcases List.mem_cons.mp (List.mem_of_getLast? hd) with rfl | hmem
  · decide
  · exact ne_of_digit (displayPort_digits _ d hmem) rfl

theorem parseProxyLine_item {item : Item} (h : item.WellFormed text) :
    parseProxyLine text (item.line text) = match item with
      | .proxyFor dc addr _ => some (dc, addr)
      | _ => none := by
  cases item with
  | proxyFor dc addr bracketed =>
    obtain ⟨hdc, haddr⟩ := h
    have hline : (Item.proxyFor dc addr bracketed).line text = proxyForWord ++
        ' ' :: (displayI32 dc ++ ' ' :: (displayAddr text addr bracketed ++ [';'])) := rfl
    have htrim : trim ((Item.proxyFor dc addr bracketed).line text) =
        (Item.proxyFor dc addr bracketed).line text := by
      have hpiece := trim_piece (d := 'p') (by decide) (proxyForWord.tail ++
        ' ' :: (displayI32 dc ++ ' ' :: displayAddr text addr bracketed))
      simpa [Item.line, proxyForWord] using hpiece
    have hstart : proxyForWord.isPrefixOf ((Item.proxyFor dc addr bracketed).line text) = true :=
      List.isPrefixOf_iff_prefix.mpr (List.prefix_append _ _)
    have hrest : trim (' ' :: (displayI32 dc ++ ' ' :: (displayAddr text addr bracketed ++ [';']))) =
        displayI32 dc ++ ' ' :: (displayAddr text addr bracketed ++ [';']) := by
      have hpiece := trim_visible (visible_displayI32 dc) (displayI32_ne_nil dc)
        (' ' :: displayAddr text addr bracketed)
      rw [trim_space]
      simpa using hpiece
    have hwords : words isWhitespace
        (displayI32 dc ++ ' ' :: (displayAddr text addr bracketed ++ [';'])) =
        [displayI32 dc, displayAddr text addr bracketed ++ [';']] := by
      have hword : IsWord isWhitespace (displayAddr text addr bracketed ++ [';']) :=
        isWord_of_visible (by simp)
          ((visible_displayAddr haddr bracketed).append (Visible.cons (by decide) nofun))
      rw [words_cons (by decide) (isWord_of_visible (displayI32_ne_nil dc)
        (visible_displayI32 dc)), words_word hword]
    unfold parseProxyLine
    dsimp only
    rw [htrim, if_pos hstart, hline, trimStartMatches_append (by simp) rfl, hrest, hwords]
    dsimp only
    rw [parseI32_displayI32 hdc, trimEndMatches_append (getLast_displayAddr addr bracketed),
      parseHostPort_displayAddr haddr]
    rfl
  | default dc =>
    have htrim : trim ((Item.default dc).line text) = (Item.default dc).line text := by
      have hpiece := trim_piece (d := 'd') (by decide) (defaultWord.tail ++ ' ' :: displayI32 dc)
      simpa [Item.line, defaultWord] using hpiece
    unfold parseProxyLine
    dsimp only
    rw [htrim, if_neg (by simp [Item.line, proxyForWord, defaultWord])]
  | other line =>
    unfold parseProxyLine
    dsimp only
    rw [Item.line, if_neg (by rw [h.2.2.1]; simp)]

theorem parseDefaultLine_item {item : Item} (h : item.WellFormed text) :
    parseDefaultLine (item.line text) = item.default? := by
  cases item with
  | proxyFor dc addr bracketed =>
    have htrim : trim ((Item.proxyFor dc addr bracketed).line text) =
        (Item.proxyFor dc addr bracketed).line text := by
      have hpiece := trim_piece (d := 'p') (by decide) (proxyForWord.tail ++
        ' ' :: (displayI32 dc ++ ' ' :: displayAddr text addr bracketed))
      simpa [Item.line, proxyForWord] using hpiece
    unfold parseDefaultLine
    rw [htrim]
    simp [stripPrefix, Item.line, Item.default?, proxyForWord, defaultWord]
  | default dc =>
    have htrim : trim ((Item.default dc).line text) = (Item.default dc).line text := by
      have hpiece := trim_piece (d := 'd') (by decide) (defaultWord.tail ++ ' ' :: displayI32 dc)
      simpa [Item.line, defaultWord] using hpiece
    have hrest : trim (' ' :: (displayI32 dc ++ [';'])) = displayI32 dc ++ [';'] := by
      have hpiece := trim_visible (visible_displayI32 dc) (displayI32_ne_nil dc) []
      rw [trim_space]
      simpa using hpiece
    have hlast : ∀ d ∈ (displayI32 dc).getLast?, d ≠ ';' := by
      intro d hd
      rcases displayI32_chars dc d (List.mem_of_getLast? hd) with rfl | hdigit
      · decide
      · exact ne_of_digit hdigit rfl
    unfold parseDefaultLine
    rw [htrim, Item.line, stripPrefix_append, Option.bind_some, hrest, trimEndMatches_append hlast,
      parseI32_displayI32 h]
    rfl
  | other line =>
    unfold parseDefaultLine
    rw [Item.line, stripPrefix, if_neg (by rw [h.2.2.2]; simp)]
    rfl

/-! ### Texts of many lines -/

theorem linesFrom_line {l : Line} (h : '\n' ∉ l) (cur rest : List Char) :
    linesFrom cur (l ++ '\n' :: rest) = endLine (l.reverse ++ cur) :: linesFrom [] rest := by
  induction l generalizing cur with
  | nil => rw [List.nil_append, linesFrom]; rfl
  | cons c l ih =>
    rw [List.mem_cons, not_or] at h
    rw [List.cons_append, linesFrom, ih h.2, List.reverse_cons, List.append_assoc]
    · rfl
    · exact fun hc => h.1 hc.symm

theorem endLine_reverse {l : Line} (h : l.getLast? ≠ some '\r') : endLine l.reverse = l := by
  unfold endLine
  split
  · rename_i cs hcs
    rw [← List.head?_reverse, hcs] at h
    exact absurd rfl h
  · exact List.reverse_reverse l

theorem lines_unlines {ls : List Line} (h : ∀ l ∈ ls, '\n' ∉ l ∧ l.getLast? ≠ some '\r') :
    lines (unlines ls) = ls := by
  induction ls with
  | nil => rfl
  | cons l ls ih =>
    obtain ⟨hl, hls⟩ := List.forall_mem_cons.mp h
    have hline := linesFrom_line hl.1 [] (unlines ls)
    rw [List.append_nil, endLine_reverse hl.2] at hline
    rw [unlines_cons, List.append_assoc]
    exact hline.trans (congrArg (l :: ·) (ih hls))

theorem Visible.not_mem_newline (h : Visible s) : '\n' ∉ s :=
  fun hmem => absurd (h '\n' hmem).1 (by decide)

theorem line_isLine {item : Item} (h : item.WellFormed text) :
    '\n' ∉ item.line text ∧ (item.line text).getLast? ≠ some '\r' := by
  cases item with
  | proxyFor dc addr bracketed =>
    have hdc := (visible_displayI32 dc).not_mem_newline
    have haddr := (visible_displayAddr h.2 bracketed).not_mem_newline
    constructor
    · simp [Item.line, proxyForWord, hdc, haddr]
    · simp [Item.line, List.getLast?_cons, List.getLast?_append]
  | default dc =>
    have hdc := (visible_displayI32 dc).not_mem_newline
    constructor
    · simp [Item.line, defaultWord, hdc]
    · simp [Item.line, List.getLast?_cons, List.getLast?_append]
  | other line => exact ⟨h.1, h.2.1⟩

/-- What is listed for a DC, in addition to what there is. -/
def listed (old : Option (List SocketAddr)) (new : List SocketAddr) : Option (List SocketAddr) :=
  if new = [] then old else some (old.getD [] ++ new)

theorem listed_cons (old : Option (List SocketAddr)) (a : SocketAddr) (new : List SocketAddr) :
    listed (some (old.getD [] ++ [a])) new = listed old (a :: new) := by
  unfold listed
  split
  · rename_i hnil
    simp [hnil]
  · simp

theorem lookup_pushEndpoint (map : EndpointMap) (dc dc' : ℤ) (addr : SocketAddr) :
    (pushEndpoint map dc addr).lookup dc' =
      if dc = dc' then some ((map.lookup dc').getD [] ++ [addr]) else map.lookup dc' := by
  unfold pushEndpoint
  split
  · rename_i heq
    subst heq
    exact Finmap.lookup_insert map
  · rename_i hne
    exact Finmap.lookup_insert_of_ne map (Ne.symm hne)

theorem count_add_one (n : UInt32) :
    (if n = UInt32.ofNat (2 ^ 32 - 1) then n else n + 1).toNat = min (n.toNat + 1) (2 ^ 32 - 1) := by
  have hlt := n.toNat_lt
  split
  · rename_i heq
    rw [heq]
    rfl
  · rename_i hne
    have hmax : n.toNat ≠ 2 ^ 32 - 1 := fun heq => hne (UInt32.toNat_inj.mp (heq.trans rfl))
    rw [UInt32.toNat_add]
    have hone : (1 : UInt32).toNat = 1 := rfl
    omega

/-- The rounds over some lines, whatever was read before. -/
theorem proxyForRounds_spec {items : List Item} (h : ∀ item ∈ items, item.WellFormed text)
    (acc : EndpointMap × UInt32) :
    let done := (items.map (Item.line text)).foldl (proxyForRound text) acc
    (∀ dc, done.1.lookup dc = listed (acc.1.lookup dc) (endpointsOf dc items)) ∧
      done.2.toNat = min (acc.2.toNat + items.countP Item.isProxyFor) (2 ^ 32 - 1) := by
  induction items generalizing acc with
  | nil =>
    have hlt := acc.2.toNat_lt
    refine ⟨fun dc => rfl, ?_⟩
    simp only [List.map_nil, List.foldl_nil, List.countP_nil]
    omega
  | cons item items ih =>
    obtain ⟨hitem, hitems⟩ := List.forall_mem_cons.mp h
    have hround := parseProxyLine_item hitem
    simp only [List.map_cons, List.foldl_cons]
    cases item with
    | proxyFor dc addr bracketed =>
      have hacc : proxyForRound text acc ((Item.proxyFor dc addr bracketed).line text) =
          (pushEndpoint acc.1 dc addr,
            if acc.2 = UInt32.ofNat (2 ^ 32 - 1) then acc.2 else acc.2 + 1) := by
        rw [proxyForRound, hround]
      rw [hacc]
      obtain ⟨hlookup, hcount⟩ := ih hitems (pushEndpoint acc.1 dc addr,
        if acc.2 = UInt32.ofNat (2 ^ 32 - 1) then acc.2 else acc.2 + 1)
      constructor
      · intro dc'
        rw [hlookup dc', lookup_pushEndpoint]
        by_cases hdc : dc = dc'
        · rw [if_pos hdc, listed_cons]
          simp [endpointsOf, hdc]
        · rw [if_neg hdc]
          simp [endpointsOf, hdc]
      · rw [hcount, count_add_one]
        simp only [List.countP_cons, Item.isProxyFor]
        simp only [if_true]
        omega
    | default dc =>
      have hacc : proxyForRound text acc ((Item.default dc).line text) = acc := by
        rw [proxyForRound, hround]
      rw [hacc]
      exact ih hitems acc
    | other line =>
      have hacc : proxyForRound text acc ((Item.other line).line text) = acc := by
        rw [proxyForRound, hround]
      rw [hacc]
      exact ih hitems acc

/-- The text that lists some endpoints is read as these: for each DC its addresses in their order, the
    first default, and the number of lines that say `proxy_for`. -/
theorem proxy_config_round_trip (text : IpText) (items : List Item)
    (h : ∀ item ∈ items, item.WellFormed text) (httpStatus : UInt16) :
    let data := parseProxyConfig text (unlines (items.map (Item.line text))) httpStatus
    (∀ dc, data.map.lookup dc =
        if endpointsOf dc items = [] then none else some (endpointsOf dc items)) ∧
      data.defaultDc = items.findSome? Item.default? ∧
      data.proxyForLines.toNat = min (items.countP Item.isProxyFor) (2 ^ 32 - 1) ∧
      data.httpStatus = httpStatus := by
  intro data
  have hlines : lines (unlines (items.map (Item.line text))) = items.map (Item.line text) := by
    refine lines_unlines fun l hl => ?_
    obtain ⟨item, hitem, rfl⟩ := List.mem_map.mp hl
    exact line_isLine (h item hitem)
  obtain ⟨hlookup, hcount⟩ := proxyForRounds_spec h (∅, 0)
  have hdefault : (items.map (Item.line text)).findSome? parseDefaultLine =
      items.findSome? Item.default? := by
    clear hlines hlookup hcount data
    induction items with
    | nil => rfl
    | cons item items ih =>
      obtain ⟨hitem, hitems⟩ := List.forall_mem_cons.mp h
      rw [List.map_cons, List.findSome?_cons, List.findSome?_cons, parseDefaultLine_item hitem, ih hitems]
  refine ⟨fun dc => ?_, ?_, ?_, rfl⟩
  · change ((lines (unlines (items.map (Item.line text)))).foldl (proxyForRound text)
      (∅, 0)).1.lookup dc = _
    rw [hlines, hlookup dc, Finmap.lookup_empty]
    rfl
  · change (lines (unlines (items.map (Item.line text)))).findSome? parseDefaultLine = _
    rw [hlines, hdefault]
  · change ((lines (unlines (items.map (Item.line text)))).foldl (proxyForRound text)
      (∅, 0)).2.toNat = _
    rw [hlines, hcount]
    exact congrArg (min · _) (Nat.zero_add _)

end

/-! ### An example -/

def firstEndpoint : SocketAddr := ⟨.v4 ⟨[91, 108, 4, 195], rfl⟩, 8888⟩

def secondEndpoint : SocketAddr :=
  ⟨.v6 ⟨[0x20, 0x01, 0x06, 0x7c, 0x04, 0xe8, 0xf0, 0x02, 0, 0, 0, 0, 0, 0, 0, 0x0d], rfl⟩, 80⟩

/-- The texts of these two addresses. -/
def sampleText : IpText where
  display
    | .v4 _ => "91.108.4.195".toList
    | .v6 _ => "2001:67c:4e8:f002::d".toList
  parse chars :=
    if chars = "91.108.4.195".toList then some firstEndpoint.ip
    else if chars = "2001:67c:4e8:f002::d".toList then some secondEndpoint.ip
    else none

/-- A comment, a default, and two DCs of which one has two endpoints. -/
def sampleItems : List Item :=
  [.other ['#'], .default 2, .proxyFor 2 firstEndpoint false, .proxyFor (-2) firstEndpoint false,
    .proxyFor 2 secondEndpoint true]

theorem addressable_firstEndpoint : Addressable sampleText firstEndpoint.ip := by
  have htext : sampleText.display firstEndpoint.ip = "91.108.4.195".toList := rfl
  exact ⟨⟨rfl, by rw [htext]; simp, by rw [htext]; simp, by rw [htext]; simp⟩, by rw [htext]; simp⟩

theorem addressable_secondEndpoint : Addressable sampleText secondEndpoint.ip := by
  have htext : sampleText.display secondEndpoint.ip = "2001:67c:4e8:f002::d".toList := rfl
  exact ⟨⟨rfl, by rw [htext]; simp, by rw [htext]; simp, by rw [htext]; simp⟩, by rw [htext]; simp⟩

theorem wellFormed_sampleItems : ∀ item ∈ sampleItems, item.WellFormed sampleText := by
  have htwo : IsI32 2 := by unfold IsI32; omega
  have hminus : IsI32 (-2) := by unfold IsI32; omega
  have hcomment : (Item.other ['#']).WellFormed sampleText := ⟨by decide, by decide, rfl, rfl⟩
  simp only [sampleItems, List.forall_mem_cons]
  exact ⟨hcomment, htwo, ⟨htwo, addressable_firstEndpoint⟩, ⟨hminus, addressable_firstEndpoint⟩,
    ⟨htwo, addressable_secondEndpoint⟩, nofun⟩

theorem proxy_config_round_trip_sample :
    let data := parseProxyConfig sampleText
      (unlines (sampleItems.map (Item.line sampleText))) 200
    data.map.lookup 2 = some [firstEndpoint, secondEndpoint] ∧ data.map.lookup 4 = none ∧
      data.defaultDc = some 2 ∧ data.proxyForLines.toNat = 3 ∧ data.httpStatus = 200 := by
  intro data
  obtain ⟨hlookup, hdefault, hcount, hstatus⟩ :=
    proxy_config_round_trip sampleText sampleItems wellFormed_sampleItems 200
  exact ⟨(hlookup 2).trans rfl, (hlookup 4).trans rfl, hdefault.trans rfl, hcount.trans rfl, hstatus⟩

end MtProxy.MiddleProxy.ConfigText
