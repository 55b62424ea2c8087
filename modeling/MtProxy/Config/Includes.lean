import MtProxy.Network.DnsOverrides

/-! `preprocess_includes`: a line `include = "path"` stands for the lines of another file, which may include
    others in turn. Paths are relative to the file they stand in.

        a = 1                       a = 1
        include = "b.toml"   ──▶    b = 2          b.toml:  b = 2
        c = 3                       (empty)
                                    c = 3

    `Expands` is what the includes mean, with how deep they are nested. The preprocessor computes it as long
    as that is at most 10, and an include that leads back to itself is never accepted. -/

namespace MtProxy.Config.Includes
open Network

abbrev Line := List Char

/-- The file system: paths below a directory, the directory of a file, and what files hold. -/
structure Files (P : Type) where
  join : P → List Char → P
  parent : P → Option P
  readToString : P → Except String (List Char)

/-! ### Lines -/

/-- A line that ended with `\n`; a `\r` in front of that goes too. -/
def endLine (reversed : List Char) : Line :=
  match reversed with
  | '\r' :: cs => cs.reverse
  | cs => cs.reverse

/-- `str::lines`, with the line so far in reverse. -/
def linesFrom : List Char → List Char → List Line
  | [], [] => []
  | cur, [] => [cur.reverse]
  | cur, '\n' :: cs => endLine cur :: linesFrom [] cs
  | cur, c :: cs => linesFrom (c :: cur) cs

def lines (text : List Char) : List Line := linesFrom [] text

def unlines (ls : List Line) : List Char := ls.flatMap (· ++ ['\n'])

def stripPrefix (p s : List Char) : Option (List Char) :=
  if p.isPrefixOf s then some (s.drop p.length) else none

/-- `trim_matches('"')` -/
def trimQuotes (s : List Char) : List Char :=
  ((s.dropWhile (· = '"')).reverse.dropWhile (· = '"')).reverse

/-- The path of an include. -/
def includePath (line : Line) : Option (List Char) :=
  (stripPrefix "include".toList (trim line)).bind fun rest =>
    (stripPrefix "=".toList (trim rest)).map fun rest => trimQuotes (trim rest)

section
variable {P : Type} (fs : Files P)

/-- The directory that the includes in a file are relative to. -/
def Files.dirOf (dir file : P) : P := (fs.parent file).getD dir

/-- `preprocess_includes` at the depth `11 - left`. -/
def preprocessIncludes : ℕ → List Char → P → Except String (List Char)
  | 0, _, _ => .error "Include depth > 10"
  | left + 1, content, baseDir =>
    (lines content).foldlM (fun output line =>
      match includePath line with
      | some pathStr => do
        let resolved := fs.join baseDir pathStr
        let included ← fs.readToString resolved
        let text ← preprocessIncludes left included (fs.dirOf baseDir resolved)
        return output ++ (text ++ ['\n'])
      | none => return output ++ (line ++ ['\n'])) []

/-- As `load` calls it. -/
def preprocess (content : List Char) (baseDir : P) : Except String (List Char) :=
  preprocessIncludes fs 11 content baseDir

/-! ### What includes mean -/

/-- The lines in a directory come to `out`, with includes nested at most `h` deep. -/
inductive Expands : P → List Line → ℕ → List Line → Prop where
  | nil (dir : P) (h : ℕ) : Expands dir [] h []
  | plain {dir : P} {line : Line} {rest out : List Line} {h : ℕ} (hline : includePath line = none)
      (hrest : Expands dir rest h out) : Expands dir (line :: rest) h (line :: out)
  | included {dir : P} {line : Line} {rest inner out : List Line} {h : ℕ} {path text : List Char}
      (hline : includePath line = some path) (hread : fs.readToString (fs.join dir path) = .ok text)
      (hinner : Expands (fs.dirOf dir (fs.join dir path)) (lines text) h inner)
      (hrest : Expands dir rest (h + 1) out) :
      Expands dir (line :: rest) (h + 1) (inner ++ [] :: out)

variable {fs} {dir : P} {ls out : List Line} {h left : ℕ} {content : List Char}

theorem unlines_cons (l : Line) (ls : List Line) : unlines (l :: ls) = (l ++ ['\n']) ++ unlines ls :=
  List.flatMap_cons

theorem unlines_included (inner ls : List Line) :
    unlines (inner ++ [] :: ls) = (unlines inner ++ ['\n']) ++ unlines ls := by
  rw [unlines, List.flatMap_append, List.flatMap_cons, List.nil_append, ← List.append_assoc]
  rfl

/-- An include leaves no include behind. -/
theorem Expands.plain_lines (hexp : Expands fs dir ls h out) : ∀ l ∈ out, includePath l = none := by
  induction hexp with
  | nil dir h => simp
  | plain hline hrest ih => exact List.forall_mem_cons.mpr ⟨hline, ih⟩
  | included hline hread hinner hrest ihinner ih =>
    intro l hl
    rcases List.mem_append.mp hl with hl | hl
    · exact ihinner l hl
    · rcases List.mem_cons.mp hl with rfl | hl
      · rfl
      · exact ih l hl

/-- The loop over the lines, given what the includes in them come to. -/
theorem foldlM_lines {f : List Char → Line → Except String (List Char)}
    (hplain : ∀ output line, includePath line = none → f output line = .ok (output ++ (line ++ ['\n'])))
    (hincluded : ∀ output line path, includePath line = some path → ∀ s, f output line = .ok s ↔
      ∃ text inner h, left = h + 1 ∧ fs.readToString (fs.join dir path) = .ok text ∧
        Expands fs (fs.dirOf dir (fs.join dir path)) (lines text) h inner ∧
        s = output ++ (unlines inner ++ ['\n']))
    (ls : List Line) (output s : List Char) :
    ls.foldlM f output = .ok s ↔ ∃ out, Expands fs dir ls left out ∧ s = output ++ unlines out := by
  induction ls generalizing output with
  | nil =>
    constructor
    · intro hs
      obtain rfl : output = s := Except.ok.inj hs
      exact ⟨[], .nil dir left, (List.append_nil output).symm⟩
    · rintro ⟨out, hexp, rfl⟩
      cases hexp
      rw [unlines, List.flatMap_nil, List.append_nil]
      rfl
  | cons line rest ih =>
    have hcons : ∀ r, (line :: rest).foldlM f output = .ok r ↔
        ∃ mid, f output line = .ok mid ∧ rest.foldlM f mid = .ok r := by
      intro r
      rw [List.foldlM_cons]
      cases f output line with
      | error e => simp [bind, Except.bind]
      | ok mid => simp [bind, Except.bind]
    rw [hcons]
    constructor
    · rintro ⟨mid, hmid, hrest⟩
      obtain ⟨out, hout, rfl⟩ := (ih mid).mp hrest
      cases hline : includePath line with
      | none =>
        rw [hplain output line hline] at hmid
        obtain rfl := Except.ok.inj hmid
        exact ⟨line :: out, .plain hline hout, by rw [unlines_cons, List.append_assoc]⟩
      | some path =>
        obtain ⟨text, inner, h, rfl, hread, hinner, rfl⟩ := (hincluded output line path hline mid).mp hmid
        exact ⟨inner ++ [] :: out, .included hline hread hinner hout, by
          rw [unlines_included, List.append_assoc]⟩
    · rintro ⟨out, hexp, rfl⟩
      cases hexp with
      | plain hline hrest =>
        exact ⟨_, hplain output line hline,
          (ih _).mpr ⟨_, hrest, by rw [unlines_cons, ← List.append_assoc output]⟩⟩
      | included hline hread hinner hrest =>
        exact ⟨_, (hincluded output line _ hline _).mpr ⟨_, _, _, rfl, hread, hinner, rfl⟩,
          (ih _).mpr ⟨_, hrest, by rw [unlines_included, ← List.append_assoc output]⟩⟩

theorem preprocessIncludes_ok (left : ℕ) (content : List Char) (dir : P) (s : List Char) :
    preprocessIncludes fs (left + 1) content dir = .ok s ↔
      ∃ out, Expands fs dir (lines content) left out ∧ s = unlines out := by
  induction left generalizing content dir s with
  | zero =>
    rw [preprocessIncludes, @foldlM_lines P fs dir 0]
    · rfl
    · intro output line hline
      simp only [hline]
      rfl
    · intro output line path hline s
      simp only [hline]
      constructor
      · intro hs
        cases hread : fs.readToString (fs.join dir path) <;>
          simp [hread, preprocessIncludes, bind, Except.bind] at hs
      · rintro ⟨text, inner, h, hleft, -⟩
        omega
  | succ left ih =>
    rw [preprocessIncludes, @foldlM_lines P fs dir (left + 1)]
    · rfl
    · intro output line hline
      simp only [hline]
      rfl
    · intro output line path hline s
      simp only [hline]
      constructor
      · intro hs
        cases hread : fs.readToString (fs.join dir path) with
        | error e => simp [hread, bind, Except.bind] at hs
        | ok text =>
          cases hinner : preprocessIncludes fs (left + 1) text (fs.dirOf dir (fs.join dir path)) with
          | error e => simp [hread, hinner, bind, Except.bind] at hs
          | ok inside =>
            obtain ⟨inner, hexp, rfl⟩ := (ih _ _ _).mp hinner
            simp only [hread, hinner, bind, Except.bind, pure, Except.pure, Except.ok.injEq] at hs
            exact ⟨text, inner, left, rfl, rfl, hexp, hs.symm⟩
      · rintro ⟨text, inner, h, hleft, hread, hexp, rfl⟩
        obtain rfl : left = h := Nat.succ.inj hleft
        simp only [hread, (ih _ _ _).mpr ⟨inner, hexp, rfl⟩, bind, Except.bind, pure, Except.pure]

/-- Lines that lead into a set of files each of which leads back into it. -/
theorem not_expands_of_cycle {C : Set P}
    (hcycle : ∀ file ∈ C, ∀ dir text, fs.readToString file = .ok text →
      ∃ line ∈ lines text, ∃ path, includePath line = some path ∧
        fs.join (fs.dirOf dir file) path ∈ C)
    (hexp : Expands fs dir ls h out) :
    ∀ line ∈ ls, ∀ path, includePath line = some path → fs.join dir path ∉ C := by
  induction hexp with
  | nil dir h => simp
  | plain hline hrest ih =>
    intro line hmem path hpath
    rcases List.mem_cons.mp hmem with rfl | hmem
    · rw [hline] at hpath
      cases hpath
    · exact ih line hmem path hpath
  | @included dir line rest inner out h path text hline hread hinner hrest ihinner ih =>
    intro line' hmem path' hpath hC
    rcases List.mem_cons.mp hmem with rfl | hmem
    · obtain rfl : path = path' := Option.some.inj (hline.symm.trans hpath)
      obtain ⟨next, hnext, path₁, hpath₁, hC₁⟩ := hcycle _ hC dir text hread
      exact ihinner next hnext path₁ hpath₁ hC₁
    · exact ih line' hmem path' hpath hC

end

/-- A configuration is put together exactly as its includes say, relative to the files they stand in, if
    they are nested at most 10 deep and all files can be read; it is refused otherwise. No include is
    left in what comes out, and files that include one another in a circle are refused. -/
theorem includes_expanded {P : Type} (fs : Files P) (content : List Char) (dir : P) :
    (∀ s, preprocess fs content dir = .ok s ↔
        ∃ out, Expands fs dir (lines content) 10 out ∧ s = unlines out) ∧
      (∀ out h, Expands fs dir (lines content) h out → ∀ l ∈ out, includePath l = none) ∧
      ∀ C : Set P, (∀ file ∈ C, ∀ dir text, fs.readToString file = .ok text →
          ∃ line ∈ lines text, ∃ path, includePath line = some path ∧
            fs.join (fs.dirOf dir file) path ∈ C) →
        (∃ line ∈ lines content, ∃ path, includePath line = some path ∧ fs.join dir path ∈ C) →
        ∃ e, preprocess fs content dir = .error e := by
  refine ⟨fun s => preprocessIncludes_ok 10 content dir s, fun out h hexp => hexp.plain_lines, ?_⟩
  rintro C hcycle ⟨line, hline, path, hpath, hC⟩
  cases hresult : preprocess fs content dir with
  | error e => exact ⟨e, rfl⟩
  | ok s =>
    obtain ⟨out, hexp, -⟩ := (preprocessIncludes_ok 10 content dir s).mp hresult
    exact absurd hC (not_expands_of_cycle hcycle hexp line hline path hpath)

/-- Two files, each of which includes the other one behind a line of its own. -/
def mutualFiles : Files (List Char) where
  join _ path := path
  parent _ := none
  readToString
    | ['a'] => .ok "x = 1\ninclude = \"b\"".toList
    | ['b'] => .ok "y = 2\ninclude = \"a\"".toList
    | _ => .error "No such file"

/-- A configuration that includes the first of them is refused. -/
theorem includes_expanded_circle :
    ∃ e, preprocess mutualFiles "include = \"a\"\nz = 3".toList [] = .error e := by
  refine (includes_expanded mutualFiles "include = \"a\"\nz = 3".toList []).2.2 {['a'], ['b']} ?_
    ⟨"include = \"a\"".toList, by decide, ['a'], by decide, .inl rfl⟩
  rintro file (rfl | rfl) dir text htext
  · obtain rfl := Except.ok.inj htext
    exact ⟨"include = \"b\"".toList, by decide, ['b'], by decide, .inr rfl⟩
  · obtain rfl := Except.ok.inj htext
    exact ⟨"include = \"a\"".toList, by decide, ['a'], by decide, .inl rfl⟩

end MtProxy.Config.Includes
