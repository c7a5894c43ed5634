import KnowledgeCompanion.AuthRoutes
import KnowledgeCompanion.Stretches

/-! The client's form validators (`shared/validators.dart`) beside the checks that the
Gateway makes of the same registration. -/

namespace KnowledgeCompanion.FormValidators

open AuthService AuthRoutes Stretches

def utf16Length (text : Text) : ℕ := (text.map fun c => if c.toNat < 0x10000 then 1 else 2).sum

def isLineTerminator (c : Char) : Bool :=
  c == '\n' || c == '\r' || c.toNat == 0x2028 || c.toNat == 0x2029

def isAddressChar (c : Char) : Bool :=
  c.isAlphanum || ".!#$%&'*+/=?^_`\x7b|\x7d~-".toList.contains c

def isLabelChar (c : Char) : Bool := c.isAlphanum || c == '-'

/-- `[a-zA-Z0-9](?:[a-zA-Z0-9-]{0,61}[a-zA-Z0-9])?` on the whole text. -/
def labelRegex : Text → Bool
  | [] => false
  | first :: rest =>
    first.isAlphanum && (rest.isEmpty || (decide (rest.dropLast.length ≤ 61) &&
      rest.dropLast.all isLabelChar && rest.getLast?.any Char.isAlphanum))

/-- The labels and the characters before `@` hold neither of the two separators. -/
def emailRegex (e : Text) : Bool :=
  match e.splitOn '@' with
  | [name, domain] =>
    !name.isEmpty && name.all isAddressChar && (domain.splitOn '.').all labelRegex
  | _ => false

def passwordRegex (p : Text) : Bool :=
  p.tails.any fun here =>
    (line isLineTerminator here).any Char.isAlpha && (line isLineTerminator here).any Char.isDigit

def validateEmail : Option Text → Option String
  | none => some "请输入邮箱"
  | some value =>
    if value.isEmpty then some "请输入邮箱"
    else if !emailRegex value then some "邮箱格式不正确"
    else none

def validatePassword : Option Text → Option String
  | none => some "密码至少 8 位"
  | some value =>
    if utf16Length value < 8 then some "密码至少 8 位"
    else if !passwordRegex value then some "密码需同时包含字母和数字"
    else none

theorem passwordRegex_iff (p : Text) :
    passwordRegex p = true ↔ Together isLineTerminator Char.isAlpha Char.isDigit p := by
  simp only [passwordRegex, together_iff_ahead, List.any_eq_true, List.mem_tails, Bool.and_eq_true]

theorem isAlpha_range {c : Char} (h : c.isAlpha = true) :
    (65 ≤ c.toNat ∧ c.toNat ≤ 90) ∨ (97 ≤ c.toNat ∧ c.toNat ≤ 122) := by
  rcases (Bool.or_eq_true c.isUpper c.isLower).mp h with upper | lower
  · have bounds : 'A'.val ≤ c.val ∧ c.val ≤ 'Z'.val := of_decide_eq_true upper
    exact .inl ⟨UInt32.le_iff_toNat_le.mp bounds.1, UInt32.le_iff_toNat_le.mp bounds.2⟩
  · have bounds := (Bool.and_eq_true (decide ('a'.val ≤ c.val)) (decide (c.val ≤ 'z'.val))).mp lower
    exact .inr ⟨UInt32.le_iff_toNat_le.mp (of_decide_eq_true bounds.1),
      UInt32.le_iff_toNat_le.mp (of_decide_eq_true bounds.2)⟩

theorem isDigit_range {c : Char} (h : c.isDigit = true) : 48 ≤ c.toNat ∧ c.toNat ≤ 57 :=
  Char.isDigit_iff_toNat.mp h

theorem isDigit_of_isAlpha (c : Char) (h : c.isAlpha = true) : c.isDigit = false := by
  have letter := isAlpha_range h
  refine Bool.eq_false_iff.mpr fun digit => ?_
  have digit := isDigit_range digit
  omega

theorem plain_of_range {c : Char} (low : 48 ≤ c.toNat) : (c == '\n') = false := by
  refine beq_eq_false_iff_ne.mpr fun same => ?_
  rw [same] at low
  exact absurd low (by decide)

theorem plain_of_isAlpha (c : Char) (h : c.isAlpha = true) : (c == '\n') = false :=
  plain_of_range (by have := isAlpha_range h; omega)

theorem plain_of_isDigit (c : Char) (h : c.isDigit = true) : (c == '\n') = false :=
  plain_of_range (isDigit_range h).1

theorem mixedFrom_iff (p : Text) : p.tails.any mixedFrom = true ↔
    Before (· == '\n') Char.isAlpha Char.isDigit p ∨
      Before (· == '\n') Char.isDigit Char.isAlpha p := by
  have one (tail : Text) : mixedFrom tail = true ↔ ∃ c rest, tail = c :: rest ∧
      ((c.isAlpha = true ∧ ∃ y ∈ line (· == '\n') rest, y.isDigit = true) ∨
        c.isDigit = true ∧ ∃ y ∈ line (· == '\n') rest, y.isAlpha = true) := by
    cases tail with
    | nil => simp [mixedFrom]
    | cons c rest => simp [mixedFrom, line, bne]
  simp only [List.any_eq_true, List.mem_tails, one, Before]
  constructor
  · rintro ⟨_, suffix, c, rest, rfl, found | found⟩
    · exact .inl ⟨c, rest, suffix, found⟩
    · exact .inr ⟨c, rest, suffix, found⟩
  · rintro (⟨c, rest, suffix, found⟩ | ⟨c, rest, suffix, found⟩)
    · exact ⟨_, suffix, c, rest, rfl, .inl found⟩
    · exact ⟨_, suffix, c, rest, rfl, .inr found⟩

theorem passwordRegexp_iff (p : Text) :
    passwordRegexp p = true ↔ Together (· == '\n') Char.isAlpha Char.isDigit p := by
  rw [passwordRegexp, mixedFrom_iff,
    together_iff_before isDigit_of_isAlpha plain_of_isAlpha plain_of_isDigit]

theorem accepts_password_iff (p : Text) : validatePassword (some p) = none ↔
    8 ≤ utf16Length p ∧ Together isLineTerminator Char.isAlpha Char.isDigit p := by
  rw [← passwordRegex_iff, ← Nat.not_lt]
  by_cases short : utf16Length p < 8 <;> simp [validatePassword, short]

theorem gateway_password_iff (p : Text) : AuthService.validatePassword p = .ok () ↔
    8 ≤ byteLength p ∧ Together (· == '\n') Char.isAlpha Char.isDigit p := by
  rw [← passwordRegexp_iff, ← Nat.not_lt]
  by_cases short : byteLength p < 8 <;> cases mixed : passwordRegexp p <;>
    simp [AuthService.validatePassword, passwordMinLen, short, mixed]

theorem length_le_byteLength (p : Text) : p.length ≤ byteLength p := by
  induction p with
  | nil => exact le_refl _
  | cons c rest ih =>
    simp only [byteLength, List.length_cons, List.map_cons, List.sum_cons] at *
    have filled := Char.utf8Size_pos c
    omega

/-- The password passes its binding tag, which counts code points, and the service. -/
def GatewayPassword (p : Text) : Prop := 8 ≤ p.length ∧ AuthService.validatePassword p = .ok ()

theorem gatewayPassword_iff (p : Text) :
    GatewayPassword p ↔ 8 ≤ p.length ∧ Together (· == '\n') Char.isAlpha Char.isDigit p := by
  rw [GatewayPassword, gateway_password_iff]
  exact and_congr_right fun long => and_iff_right (long.trans (length_le_byteLength p))

theorem gatewayPassword_of_accepts {p : Text} (h : validatePassword (some p) = none)
    (long : 8 ≤ p.length) : GatewayPassword p := by
  refine (gatewayPassword_iff p).mpr ⟨long, ((accepts_password_iff p).mp h).2.mono ?_⟩
  intro c newline
  simp only [isLineTerminator, newline, Bool.true_or]

def EightWithLetterAndDigit (p : Text) : Prop :=
  8 ≤ p.length ∧ (∃ c ∈ p, c.isAlpha = true) ∧ ∃ c ∈ p, c.isDigit = true

def PlainAscii (p : Text) : Prop := ∀ c ∈ p, c.toNat < 128 ∧ c ≠ '\n' ∧ c ≠ '\r'

theorem PlainAscii.unbroken {p : Text} (plain : PlainAscii p) :
    (∀ c ∈ p, isLineTerminator c = false) ∧ ∀ c ∈ p, (c == '\n') = false := by
  refine ⟨fun c hc => ?_, fun c hc => beq_eq_false_iff_ne.mpr (plain c hc).2.1⟩
  obtain ⟨ascii, newline, carriage⟩ := plain c hc
  have separators : c.toNat ≠ 0x2028 ∧ c.toNat ≠ 0x2029 := by omega
  simp [isLineTerminator, newline, carriage, separators]

theorem utf16Length_basic {p : Text} (basic : ∀ c ∈ p, c.toNat < 0x10000) :
    utf16Length p = p.length := by
  rw [utf16Length, List.map_congr_left fun c hc => if_pos (basic c hc)]
  simp

theorem PlainAscii.agree {p : Text} (plain : PlainAscii p) :
    (validatePassword (some p) = none ↔ EightWithLetterAndDigit p) ∧
      (GatewayPassword p ↔ EightWithLetterAndDigit p) := by
  obtain ⟨terminators, newlines⟩ := plain.unbroken
  have units : utf16Length p = p.length := utf16Length_basic fun c hc => by
    have ascii := (plain c hc).1
    omega
  rw [accepts_password_iff, gatewayPassword_iff, together_unbroken terminators,
    together_unbroken newlines, units]
  exact ⟨Iff.rfl, Iff.rfl⟩

/-- What the pattern of the Gateway asks of an address that the client accepts: its own
characters before the `@` and a last label of two letters or more. -/
def GatewayAddress (email : Text) : Prop :=
  ∃ name front top, email = name ++ '@' :: (front ++ '.' :: top) ∧
    (∀ c ∈ name, isLocalChar c = true) ∧ (∀ c ∈ top, c.isAlpha = true) ∧ 2 ≤ top.length

theorem emailRegex_parts {e : Text} (h : emailRegex e = true) :
    ∃ name domain, e.splitOn '@' = [name, domain] ∧ name ≠ [] ∧
      ∀ label ∈ domain.splitOn '.', labelRegex label = true := by
  unfold emailRegex at h
  split at h
  · rename_i name domain parts
    simp only [Bool.and_eq_true, Bool.not_eq_true', List.isEmpty_eq_false_iff,
      List.all_eq_true] at h
    exact ⟨name, domain, parts, h.1.1, h.2⟩
  · cases h

theorem isDomainChar_of_label {label : Text} (h : labelRegex label = true) {c : Char}
    (hc : c ∈ label) : isDomainChar c = true := by
  have inner {c : Char} (ok : isLabelChar c = true) : isDomainChar c = true := by
    rcases Bool.or_eq_true _ _ |>.mp ok with alnum | hyphen
    · simp [isDomainChar, alnum]
    · rw [beq_iff_eq.mp hyphen]
      decide
  cases label with
  | nil => cases hc
  | cons first rest =>
    simp only [labelRegex, Bool.and_eq_true, Bool.or_eq_true, List.isEmpty_iff,
      decide_eq_true_eq, List.all_eq_true, Option.any_eq_true] at h
    obtain ⟨start, rfl | ⟨⟨-, middle⟩, last, final, alnum⟩⟩ := h
    · rw [List.mem_singleton.mp hc]
      exact inner (by simp [isLabelChar, start])
    · rcases List.mem_cons.mp hc with rfl | hc
      · exact inner (by simp [isLabelChar, start])
      · rw [← List.dropLast_append_getLast? last final] at hc
        rcases List.mem_append.mp hc with hc | hc
        · exact inner (middle c hc)
        · rw [List.mem_singleton.mp hc]
          exact inner (by simp [isLabelChar, alnum])

theorem domainRegexp_iff {domain : Text}
    (labels : ∀ label ∈ domain.splitOn '.', labelRegex label = true) :
    domainRegexp domain = true ↔ ∃ front top, domain = front ++ '.' :: top ∧
      (∀ c ∈ top, c.isAlpha = true) ∧ 2 ≤ top.length := by
  constructor
  · intro h
    simp only [domainRegexp, List.any_eq_true, List.mem_range, Bool.and_eq_true, beq_iff_eq,
      List.all_eq_true, decide_eq_true_eq] at h
    obtain ⟨i, inside, ⟨⟨⟨dot, -⟩, -⟩, letters⟩, long⟩ := h
    refine ⟨domain.take i, domain.drop (i + 1), ?_, letters, long⟩
    have here := List.getElem?_eq_some_iff.mp dot
    obtain ⟨_, found⟩ := here
    rw [← found, ← List.drop_eq_getElem_cons inside, List.take_append_drop]
  · rintro ⟨front, top, rfl, letters, long⟩
    have some : front ≠ [] := by
      rintro rfl
      have first := labels [] (by
        rw [List.splitOn_append_cons_self_of_not_mem List.not_mem_nil]
        exact List.mem_cons_self)
      cases first
    have chars : ∀ c ∈ front, isDomainChar c = true := by
      intro c hc
      rcases Text.mem_splitOn (x := '.') (List.mem_append_left ('.' :: top) hc) with dot | found
      · rw [dot]
        decide
      · obtain ⟨label, there, inside⟩ := found
        exact isDomainChar_of_label (labels label there) inside
    simp only [domainRegexp, List.any_eq_true, List.mem_range, Bool.and_eq_true, beq_iff_eq,
      List.all_eq_true, decide_eq_true_eq]
    refine ⟨front.length, by simp, ⟨⟨⟨by simp, by simpa using some⟩, ?_⟩, ?_⟩, ?_⟩
    · simpa using chars
    · simpa using letters
    · simpa using long

theorem no_at_of_local {name : Text} (h : ∀ c ∈ name, isLocalChar c = true) : '@' ∉ name :=
  fun inside => absurd (h '@' inside) (by decide)

theorem emailRegexp_iff {e : Text} (accepted : emailRegex e = true) :
    emailRegexp e = true ↔ GatewayAddress e := by
  obtain ⟨name, domain, parts, some, labels⟩ := emailRegex_parts accepted
  have whole := (Text.splitOn_eq_two.mp parts)
  have gateway : emailRegexp e = true ↔
      (∀ c ∈ name, isLocalChar c = true) ∧ domainRegexp domain = true := by
    simp [emailRegexp, parts, some]
  rw [gateway, domainRegexp_iff labels]
  constructor
  · rintro ⟨chars, front, top, rfl, letters, long⟩
    exact ⟨name, front, top, whole.1, chars, letters, long⟩
  · rintro ⟨name', front, top, same, chars, letters, long⟩
    obtain ⟨rfl, rfl⟩ := Text.append_cons_inj whole.2.1 (no_at_of_local chars)
      (whole.1.symm.trans same)
    exact ⟨chars, front, top, rfl, letters, long⟩

theorem accepts_email {e : Text} (h : validateEmail (some e) = none) :
    e ≠ [] ∧ emailRegex e = true := by
  unfold validateEmail at h
  cases e with
  | nil => cases h
  | cons c rest =>
    cases grammar : emailRegex (c :: rest) with
    | false => simp [grammar] at h
    | true => exact ⟨List.cons_ne_nil c rest, rfl⟩

/-- The Gateway's validation of a registration: the binding tags of the body, then the checks
of the service. -/
def Registers (cfg : RouteConfig) (req : RegisterRequest) : Prop :=
  ∃ bound, bindRegister cfg (some req) = some bound ∧ validateRegisterRequest bound = .ok ()

theorem registers_iff (cfg : RouteConfig) (req : RegisterRequest) :
    Registers cfg req ↔ cfg.emailRule req.email = true ∧ GatewayPassword req.password ∧
      req.email ≠ [] ∧ emailRegexp req.email = true := by
  have bound : (∃ b, bindRegister cfg (some req) = some b ∧ validateRegisterRequest b = .ok ()) ↔
      (req.email ≠ [] ∧ cfg.emailRule req.email = true ∧ 8 ≤ req.password.length) ∧
        validateRegisterRequest req = .ok () := by
    simp [bindRegister, Option.filter_some, and_assoc]
  have checked : validateRegisterRequest req = .ok () ↔
      (req.email ≠ [] ∧ emailRegexp req.email = true) ∧
        AuthService.validatePassword req.password = .ok () := by
    unfold validateRegisterRequest
    by_cases some : req.email = []
    · simp [some]
    · cases matched : emailRegexp req.email <;>
        cases AuthService.validatePassword req.password <;> simp [some]
  rw [Registers, bound, checked, GatewayPassword]
  tauto

/-- A registration that passes the form passes the Gateway exactly when its address follows
the Gateway's narrower pattern and the rule of the `email` tag, and its password has eight
characters. Each side asks for eight of its own units and for a letter and a digit on one of
its own lines, which between plain ASCII characters is the rule of the messages. -/
theorem form_and_gateway (cfg : RouteConfig) (email password nickname : Text) :
    (validateEmail (some email) = none → validatePassword (some password) = none →
      (Registers cfg ⟨email, password, nickname⟩ ↔
        GatewayAddress email ∧ cfg.emailRule email = true ∧ 8 ≤ password.length)) ∧
    (validatePassword (some password) = none ↔
      8 ≤ utf16Length password ∧
        Together isLineTerminator Char.isAlpha Char.isDigit password) ∧
    (GatewayPassword password ↔
      8 ≤ password.length ∧ Together (· == '\n') Char.isAlpha Char.isDigit password) ∧
    ((∀ c ∈ password, c.toNat < 0x10000) → validatePassword (some password) = none →
      GatewayPassword password) ∧
    (PlainAscii password →
      (validatePassword (some password) = none ↔ EightWithLetterAndDigit password) ∧
      (GatewayPassword password ↔ EightWithLetterAndDigit password)) := by
  refine ⟨fun address accepted => ?_, accepts_password_iff password, gatewayPassword_iff password,
    fun basic accepted => ?_, PlainAscii.agree⟩
  · obtain ⟨some, grammar⟩ := accepts_email address
    rw [registers_iff, ← emailRegexp_iff grammar]
    exact ⟨fun ⟨rule, long, _, matched⟩ => ⟨matched, rule, long.1⟩,
      fun ⟨matched, rule, long⟩ => ⟨rule, gatewayPassword_of_accepts accepted long, some, matched⟩⟩
  · refine gatewayPassword_of_accepts accepted ?_
    rw [← utf16Length_basic basic]
    exact ((accepts_password_iff password).mp accepted).1

/-- What the rule asks of the dots of an address: a name without empty parts and a domain of
two labels or more. -/
def dottedRule (email : Text) : Bool :=
  match email.splitOn '@' with
  | [name, domain] => (name.splitOn '.').all (fun part => !part.isEmpty) && domain.contains '.'
  | _ => false

def formRoutes : RouteConfig := { routeConfig with emailRule := dottedRule }

theorem form_and_gateway_example :
    Registers formRoutes ⟨"user@example.com".toList, "Password1".toList, []⟩ ∧
      GatewayPassword "Password1".toList := by
  have both := form_and_gateway formRoutes "user@example.com".toList "Password1".toList []
  have address : validateEmail (some "user@example.com".toList) = none := by decide
  have accepted : validatePassword (some "Password1".toList) = none := by decide
  refine ⟨(both.1 address accepted).mpr ⟨?_, by decide, by decide⟩,
    both.2.2.2.1 (by simp) accepted⟩
  exact ⟨"user".toList, "example".toList, "com".toList, rfl,
    List.all_eq_true.mp (by decide), List.all_eq_true.mp (by decide), by decide⟩

/-- An address without a dot passes the form only, and so do five characters that make eight
units; a line break between the letters and the digit makes both sides refuse. -/
theorem form_and_gateway_differ :
    (validateEmail (some "user@localhost".toList) = none ∧
      validatePassword (some "Password1".toList) = none ∧
      ¬ Registers formRoutes ⟨"user@localhost".toList, "Password1".toList, []⟩) ∧
    (validateEmail (some "user@example.com".toList) = none ∧
      validatePassword (some "a1😀😀😀".toList) = none ∧
      ¬ Registers formRoutes ⟨"user@example.com".toList, "a1😀😀😀".toList, []⟩) ∧
    (EightWithLetterAndDigit "abcdefg\n1".toList ∧
      validatePassword (some "abcdefg\n1".toList) ≠ none ∧
      ¬ GatewayPassword "abcdefg\n1".toList) := by
  refine ⟨⟨by decide, by decide, fun both => ?_⟩,
    ⟨by decide, by decide, fun both => ?_⟩, ⟨by decide, ⟨'a', by simp, rfl⟩, '1', by simp, rfl⟩,
    by decide, fun both => ?_⟩
  · exact absurd ((registers_iff _ _).mp both).2.2.2 (by decide)
  · exact absurd ((registers_iff _ _).mp both).2.1.1 (by decide)
  · exact absurd both.2 (by decide)

end KnowledgeCompanion.FormValidators
