import KnowledgeCompanion.Text

/-! Python's `urllib.parse.urlsplit`. `urlparse` adds nothing for the schemes outside its list
of those with parameters. -/

namespace KnowledgeCompanion.UrlSplit

structure SplitResult where
  scheme : Text
  netloc : Text
  path : Text
  query : Text
  fragment : Text
deriving DecidableEq

/-- The NFKC form of a text (`unicodedata`) and whether a bracketed host is an address
(`ipaddress`). -/
structure UrlRules where
  nfkc : Text → Text
  bracketedHost : Text → Bool

def isRemoved (c : Char) : Bool := c == '\t' || c == '\r' || c == '\n'

def cleanURL (url : Text) : Text :=
  (url.dropWhile fun c => decide (c.toNat ≤ 32)).filter fun c => !isRemoved c

def isAsciiLetter (c : Char) : Bool :=
  let n := c.toNat
  (65 ≤ n && n ≤ 90) || (97 ≤ n && n ≤ 122)

def isSchemeChar (c : Char) : Bool :=
  isAsciiLetter c || (48 ≤ c.toNat && c.toNat ≤ 57) || c == '+' || c == '-' || c == '.'

def isScheme (name : Text) : Bool := name.head?.any isAsciiLetter && name.all isSchemeChar

def splitScheme (url : Text) : Text × Text :=
  let name := url.takeWhile (· != ':')
  match url.dropWhile (· != ':') with
  | [] => ([], url)
  | _ :: rest => if isScheme name then (name.map Char.toLower, rest) else ([], url)

def endsNetloc (c : Char) : Bool := c == '/' || c == '?' || c == '#'

def splitNetloc (url : Text) : Text × Text :=
  match url with
  | '/' :: '/' :: rest =>
    (rest.takeWhile fun c => !endsNetloc c, rest.dropWhile fun c => !endsNetloc c)
  | _ => ([], url)

def partition (c : Char) (text : Text) : Text × Text :=
  (text.takeWhile (· != c), (text.dropWhile (· != c)).drop 1)

def checkBrackets (rules : UrlRules) (netloc : Text) : Bool :=
  if netloc.contains '[' != netloc.contains ']' then false
  else if netloc.contains '[' then
    rules.bracketedHost (partition ']' (partition '[' netloc).2).1
  else true

def checkNetloc (rules : UrlRules) (netloc : Text) : Bool :=
  if netloc.all fun c => decide (c.toNat < 128) then true
  else
    let n := netloc.filter fun c => !(['@', ':', '#', '?'].contains c)
    n == rules.nfkc n || !(rules.nfkc n).any fun c => ['/', '?', '#', '@', ':'].contains c

def urlsplit (rules : UrlRules) (url : Text) : Except String SplitResult :=
  let (scheme, url) := splitScheme (cleanURL url)
  let (netloc, url) := splitNetloc url
  if !checkBrackets rules netloc then .error "Invalid IPv6 URL"
  else
    let (url, fragment) := partition '#' url
    let (path, query) := partition '?' url
    if !checkNetloc rules netloc then
      .error "netloc contains invalid characters under NFKC normalization"
    else .ok ⟨scheme, netloc, path, query, fragment⟩

def IsLowerScheme (scheme : Text) : Prop :=
  isScheme scheme = true ∧ scheme.map Char.toLower = scheme

def isPlain (c : Char) : Bool :=
  decide (c.toNat < 128) && !endsNetloc c && !isRemoved c && c != '[' && c != ']'

def shownPath (path : Text) : Text :=
  ((path.filter fun c => !isRemoved c).takeWhile (· != '#')).takeWhile (· != '?')

theorem takeWhile_append_stop {α : Type*} {p : α → Bool} (stop : α) (rest : List α) {front : List α}
    (all : ∀ c ∈ front, p c = true) (stops : p stop = false) :
    (front ++ stop :: rest).takeWhile p = front ∧
      (front ++ stop :: rest).dropWhile p = stop :: rest := by
  rw [List.takeWhile_append_of_pos all, List.dropWhile_append_of_pos all,
    List.takeWhile_cons_of_neg (by simp [stops]), List.dropWhile_cons_of_neg (by simp [stops]),
    List.append_nil]
  exact ⟨rfl, rfl⟩

theorem isSchemeChar_bounds {c : Char} (h : isSchemeChar c = true) :
    isRemoved c = false ∧ c ≠ ':' ∧ 32 < c.toNat := by
  have above : 32 < c.toNat := by
    simp only [isSchemeChar, isAsciiLetter, Bool.or_eq_true, Bool.and_eq_true, decide_eq_true_eq,
      beq_iff_eq] at h
    rcases h with (((letter | digit) | rfl) | rfl) | rfl
    · omega
    · omega
    · decide
    · decide
    · decide
  refine ⟨?_, ?_, above⟩
  · simp only [isRemoved, Bool.or_eq_false_iff, beq_eq_false_iff_ne]
    refine ⟨⟨?_, ?_⟩, ?_⟩ <;> rintro rfl <;> exact absurd above (by decide)
  · rintro rfl
    exact absurd h (by decide)

theorem splitScheme_append {scheme rest : Text} (lower : IsLowerScheme scheme) :
    splitScheme (scheme ++ ':' :: rest) = (scheme, rest) := by
  obtain ⟨valid, same⟩ := lower
  have chars : ∀ c ∈ scheme, (c != ':') = true := by
    intro c mem
    rw [isScheme, Bool.and_eq_true, List.all_eq_true] at valid
    exact bne_iff_ne.mpr (isSchemeChar_bounds (valid.2 c mem)).2.1
  obtain ⟨front, back⟩ := takeWhile_append_stop ':' rest chars rfl
  unfold splitScheme
  rw [front, back]
  dsimp only
  rw [if_pos valid, same]

theorem splitNetloc_append {netloc path : Text} (plain : ∀ c ∈ netloc, isPlain c = true) :
    splitNetloc ('/' :: '/' :: (netloc ++ '/' :: path)) = (netloc, '/' :: path) := by
  have chars : ∀ c ∈ netloc, (!endsNetloc c) = true := by
    intro c mem
    have ok := plain c mem
    simp only [isPlain, Bool.and_eq_true] at ok
    exact ok.1.1.1.2
  obtain ⟨front, back⟩ := takeWhile_append_stop '/' path chars rfl
  exact congrArg₂ Prod.mk front back

theorem cleanURL_append {scheme rest : Text} (lower : IsLowerScheme scheme) :
    cleanURL (scheme ++ rest) = scheme ++ rest.filter fun c => !isRemoved c := by
  obtain ⟨valid, -⟩ := lower
  rw [isScheme, Bool.and_eq_true, List.all_eq_true] at valid
  obtain ⟨first, all⟩ := valid
  have kept : scheme.filter (fun c => !isRemoved c) = scheme := by
    rw [List.filter_eq_self]
    intro c mem
    rw [(isSchemeChar_bounds (all c mem)).1]
    rfl
  cases scheme with
  | nil => exact absurd first (by decide)
  | cons c name =>
    have above := (isSchemeChar_bounds (all c List.mem_cons_self)).2.2
    unfold cleanURL
    rw [List.cons_append, List.dropWhile_cons_of_neg (by simpa using above), ← List.cons_append,
      List.filter_append, kept]

theorem plain_brackets {netloc : Text} (plain : ∀ c ∈ netloc, isPlain c = true) (rules : UrlRules) :
    checkBrackets rules netloc = true ∧ checkNetloc rules netloc = true := by
  have parts : ∀ c ∈ netloc, c.toNat < 128 ∧ c ≠ '[' ∧ c ≠ ']' := by
    intro c mem
    have ok := plain c mem
    simp only [isPlain, Bool.and_eq_true, decide_eq_true_eq, bne_iff_ne] at ok
    exact ⟨ok.1.1.1.1, ok.1.2, ok.2⟩
  have opens : netloc.contains '[' = false := by
    rw [List.contains_eq_mem, decide_eq_false_iff_not]
    exact fun mem => (parts '[' mem).2.1 rfl
  have closes : netloc.contains ']' = false := by
    rw [List.contains_eq_mem, decide_eq_false_iff_not]
    exact fun mem => (parts ']' mem).2.2 rfl
  have ascii : (netloc.all fun c => decide (c.toNat < 128)) = true := by
    rw [List.all_eq_true]
    exact fun c mem => decide_eq_true (parts c mem).1
  constructor
  · unfold checkBrackets
    rw [opens, closes]
    rfl
  · unfold checkNetloc
    rw [if_pos ascii]

theorem urlsplit_append (rules : UrlRules) {scheme netloc path : Text}
    (lower : IsLowerScheme scheme)
    (plain : ∀ c ∈ netloc, isPlain c = true) :
    ∃ query fragment,
      urlsplit rules (scheme ++ ':' :: '/' :: '/' :: (netloc ++ '/' :: path)) =
        .ok ⟨scheme, netloc, '/' :: shownPath path, query, fragment⟩ := by
  have kept : netloc.filter (fun c => !isRemoved c) = netloc := by
    rw [List.filter_eq_self]
    intro c mem
    have ok := plain c mem
    simp only [isPlain, Bool.and_eq_true] at ok
    exact ok.1.1.2
  have clean : cleanURL (scheme ++ ':' :: '/' :: '/' :: (netloc ++ '/' :: path)) =
      scheme ++ ':' :: '/' :: '/' :: (netloc ++ '/' :: path.filter fun c => !isRemoved c) := by
    have punctuation (front back : Text) :
        List.filter (fun c => !isRemoved c) (':' :: '/' :: '/' :: (front ++ '/' :: back)) =
          ':' :: '/' :: '/' :: (front.filter (fun c => !isRemoved c) ++
            '/' :: back.filter fun c => !isRemoved c) := by
      rw [List.filter_cons_of_pos rfl, List.filter_cons_of_pos rfl, List.filter_cons_of_pos rfl,
        List.filter_append, List.filter_cons_of_pos rfl]
    rw [cleanURL_append lower, punctuation, kept]
  obtain ⟨brackets, normal⟩ := plain_brackets plain rules
  unfold urlsplit
  rw [clean, splitScheme_append lower]
  dsimp only
  rw [splitNetloc_append plain]
  dsimp only
  rw [brackets, normal]
  exact ⟨_, _, rfl⟩

end KnowledgeCompanion.UrlSplit
