import Gatehouse.Config.Environment
import Gatehouse.Proofs.Text.Spelling

/-!
# Settings and the texts of their values

Twelve settings can be overridden.  Of each it is told how the texts of its values are written: a
number in decimal, a truth value or a format by one of its words in any case, and a text by itself.
The readers of variables take these texts for these values and refuse every other text.
-/

namespace Gatehouse.Config

/-! ## Settings -/

/-- A setting that can be overridden. -/
inductive Setting where
  | address | shutdownSeconds | requestMilliseconds | workerMilliseconds | maxBodyBytes
  | serviceName | loggingEnabled | level | ansi | format | metricsEnabled | metricsAddress
  deriving DecidableEq

namespace Setting

def Value : Setting → Type
  | address | serviceName | level | metricsAddress => String
  | shutdownSeconds | requestMilliseconds | workerMilliseconds | maxBodyBytes => Nat
  | loggingEnabled | ansi | metricsEnabled => Bool
  | format => LogFormat

instance : (setting : Setting) → DecidableEq setting.Value
  | address | serviceName | level | metricsAddress => inferInstanceAs (DecidableEq String)
  | shutdownSeconds | requestMilliseconds | workerMilliseconds | maxBodyBytes =>
    inferInstanceAs (DecidableEq Nat)
  | loggingEnabled | ansi | metricsEnabled => inferInstanceAs (DecidableEq Bool)
  | format => inferInstanceAs (DecidableEq LogFormat)

def get (s : Settings) : (setting : Setting) → setting.Value
  | address => s.server.address
  | shutdownSeconds => s.server.shutdownSeconds
  | requestMilliseconds => s.server.requestMilliseconds
  | workerMilliseconds => s.server.workerMilliseconds
  | maxBodyBytes => s.server.maxBodyBytes
  | serviceName => s.telemetry.serviceName
  | loggingEnabled => s.telemetry.logging.enabled
  | level => s.telemetry.logging.level
  | ansi => s.telemetry.logging.ansi
  | format => s.telemetry.logging.format
  | metricsEnabled => s.telemetry.metrics.enabled
  | metricsAddress => s.telemetry.metrics.address

def put (s : Settings) : (setting : Setting) → setting.Value → Settings
  | address, v => { s with server := { s.server with address := v } }
  | shutdownSeconds, n => { s with server := { s.server with shutdownSeconds := n } }
  | requestMilliseconds, n => { s with server := { s.server with requestMilliseconds := n } }
  | workerMilliseconds, n => { s with server := { s.server with workerMilliseconds := n } }
  | maxBodyBytes, n => { s with server := { s.server with maxBodyBytes := n } }
  | serviceName, v => { s with telemetry := { s.telemetry with serviceName := v } }
  | loggingEnabled, b => { s with telemetry := { s.telemetry with
      logging := { s.telemetry.logging with enabled := b } } }
  | level, v => { s with telemetry := { s.telemetry with
      logging := { s.telemetry.logging with level := v } } }
  | ansi, b => { s with telemetry := { s.telemetry with
      logging := { s.telemetry.logging with ansi := b } } }
  | format, f => { s with telemetry := { s.telemetry with
      logging := { s.telemetry.logging with format := f } } }
  | metricsEnabled, b => { s with telemetry := { s.telemetry with
      metrics := { s.telemetry.metrics with enabled := b } } }
  | metricsAddress, v => { s with telemetry := { s.telemetry with
      metrics := { s.telemetry.metrics with address := v } } }

theorem get_put_self (s : Settings) (setting : Setting) (value : setting.Value) :
    setting.get (setting.put s value) = value := by
  cases setting <;> rfl

theorem get_put_of_ne {setting other : Setting} (h : other ≠ setting) (s : Settings)
    (value : setting.Value) : other.get (setting.put s value) = other.get s := by
  cases setting <;> cases other <;> first | rfl | exact absurd rfl h

end Setting

/-- Settings are told by those that can be overridden and by what no variable touches. -/
theorem Settings.ext_get {s other : Settings}
    (h : ∀ setting : Setting, setting.get s = setting.get other)
    (hauthorization : s.authorization = other.authorization)
    (hproviders : s.providers = other.providers) (hcomponents : s.components = other.components) :
    s = other := by
  have hserver : s.server = other.server :=
    ServerSettings.ext (h .address) (h .shutdownSeconds) (h .requestMilliseconds)
      (h .workerMilliseconds) (h .maxBodyBytes)
  have hlogging : s.telemetry.logging = other.telemetry.logging :=
    LoggingSettings.ext (h .loggingEnabled) (h .level) (h .format) (h .ansi)
  have hmetrics : s.telemetry.metrics = other.telemetry.metrics :=
    MetricsSettings.ext (h .metricsEnabled) (h .metricsAddress)
  have htelemetry : s.telemetry = other.telemetry :=
    TelemetrySettings.ext (h .serviceName) hlogging hmetrics
  exact Settings.ext hserver htelemetry hauthorization hproviders hcomponents

/-! ## Numbers -/

/-- The number in decimal, behind a plus or not and with any zeros in front.  It has to be one of
64 bits. -/
structure WritesNumber (text : String) (n : Nat) : Prop where
  decimal : ∃ sign ∈ ["", "+"], ∃ zeros,
    text = sign ++ String.ofList (List.replicate zeros '0') ++ n.repr
  bounded : n < 2 ^ 64

/-- Digits behind the last of which another one stands. -/
theorem ofDigitChars_concat (digits : List Char) (c : Char) :
    Nat.ofDigitChars 10 (digits ++ [c]) 0 = 10 * Nat.ofDigitChars 10 digits 0 + (c.toNat - 48) := by
  rw [Nat.ofDigitChars_append, Nat.ofDigitChars_cons, Nat.ofDigitChars_nil]
  rfl

theorem exists_digit {c : Char} (h : c.isDigit = true) :
    ∃ digit < 10, c = Nat.digitChar digit ∧ c.toNat - 48 = digit := by
  obtain ⟨hlow, hhigh⟩ := Char.isDigit_iff_toNat.mp h
  have hlow : 48 ≤ c.toNat := hlow
  have hhigh : c.toNat ≤ 57 := hhigh
  have hlt : c.toNat - 48 < 10 := by omega
  refine ⟨c.toNat - 48, hlt, ?_, rfl⟩
  apply Char.toNat_inj.mp
  rw [Nat.toNat_digitChar_of_lt_ten hlt]
  omega

/-- Digits are those of the number that they make, behind zeros. -/
theorem exists_zeros {digits : List Char} (hne : digits ≠ [])
    (hdigits : ∀ c ∈ digits, c.isDigit = true) : ∃ zeros,
      digits = List.replicate zeros '0' ++ Nat.toDigits 10 (Nat.ofDigitChars 10 digits 0) := by
  induction digits using List.reverseRecOn with
  | nil => exact absurd rfl hne
  | append_singleton front c ih =>
      obtain ⟨digit, hlt, rfl, hvalue⟩ := exists_digit (hdigits c (by simp))
      rw [ofDigitChars_concat, hvalue]
      by_cases hfront : front = []
      · subst hfront
        refine ⟨0, ?_⟩
        rw [Nat.ofDigitChars_nil, Nat.mul_zero, Nat.zero_add, Nat.toDigits_of_lt_base hlt]
        rfl
      · obtain ⟨zeros, hzeros⟩ := ih hfront fun c hc => hdigits c (List.mem_append_left _ hc)
        generalize Nat.ofDigitChars 10 front 0 = number at hzeros ⊢
        subst hzeros
        have hlast : Nat.toDigits 10 digit = [digit.digitChar] := Nat.toDigits_of_lt_base hlt
        obtain rfl | hpos := Nat.eq_zero_or_pos number
        · -- Nothing but zeros has been written, and one more of them.
          refine ⟨zeros + 1, ?_⟩
          rw [Nat.mul_zero, Nat.zero_add, hlast, Nat.toDigits_zero, List.replicate_succ']
        · refine ⟨zeros, ?_⟩
          rw [← Nat.toDigits_append_toDigits (by decide) hpos hlt, hlast, List.append_assoc]

theorem unsigned_sign {sign : String} (hsign : sign ∈ ["", "+"]) {digits : List Char}
    (hdigits : ∀ c ∈ digits, c.isDigit = true) :
    Override.unsigned (sign ++ String.ofList digits).toList = digits := by
  rw [String.toList_append, String.toList_ofList]
  obtain rfl | rfl : sign = "" ∨ sign = "+" := by simpa using hsign
  · rw [String.toList_empty, List.nil_append]
    apply Override.unsigned.eq_2
    -- A digit is no plus.
    rintro rest rfl
    exact absurd (hdigits '+' List.mem_cons_self) (by decide)
  · rfl

/-- What is read of digits, behind a plus or not. -/
theorem number?_of_digits {sign : String} (hsign : sign ∈ ["", "+"]) {digits : List Char}
    (hne : digits ≠ []) (hdigits : ∀ c ∈ digits, c.isDigit = true) :
    Override.number? (sign ++ String.ofList digits) =
      if 2 ^ 64 ≤ Nat.ofDigitChars 10 digits 0 then none
      else some (Nat.ofDigitChars 10 digits 0) := by
  have hvalue : digits.foldl (fun n c => n * 10 + (c.toNat - 48)) 0 =
      Nat.ofDigitChars 10 digits 0 := by
    simp only [Nat.ofDigitChars_eq_foldl, Nat.mul_comm 10]
    rfl
  have hempty : digits.isEmpty = false := List.isEmpty_eq_false_iff.mpr hne
  have hall : digits.all Char.isDigit = true := List.all_eq_true.mpr hdigits
  rw [Override.number?]
  simp only [unsigned_sign hsign hdigits, hvalue, hempty, hall]
  simp

theorem exists_digits {text : String} {n : Nat} (h : Override.number? text = some n) :
    ∃ sign ∈ ["", "+"], ∃ digits, text = sign ++ String.ofList digits ∧ digits ≠ [] ∧
      ∀ c ∈ digits, c.isDigit = true := by
  rw [Override.number?] at h
  obtain ⟨hread, -⟩ := Option.ite_none_left_eq_some.mp h
  simp only [Bool.or_eq_true, not_or, List.isEmpty_iff, Bool.not_eq_true', Bool.not_eq_false,
    List.all_eq_true] at hread
  obtain ⟨⟨hne, hdigits⟩, -⟩ := hread
  rw [Override.unsigned.eq_def] at hne hdigits
  split at hne
  · next rest htext =>
      refine ⟨"+", by simp, rest, ?_, hne, by simpa [htext] using hdigits⟩
      rw [← String.toList_inj]
      simp [htext]
  · next hplain =>
      refine ⟨"", by simp, text.toList, ?_, hne, by simpa using hdigits⟩
      rw [String.empty_append, String.ofList_toList]

/-- The texts that are read as a number are those that it is written in. -/
theorem number?_eq_some_iff {text : String} {n : Nat} :
    Override.number? text = some n ↔ WritesNumber text n := by
  constructor
  · intro h
    obtain ⟨sign, hsign, digits, rfl, hne, hdigits⟩ := exists_digits h
    rw [number?_of_digits hsign hne hdigits] at h
    obtain ⟨hbounded, ⟨rfl⟩⟩ := Option.ite_none_left_eq_some.mp h
    obtain ⟨zeros, hzeros⟩ := exists_zeros hne hdigits
    refine ⟨⟨sign, hsign, zeros, ?_⟩, Nat.not_le.mp hbounded⟩
    rw [Nat.repr_eq_ofList_toDigits, String.append_assoc, ← String.ofList_append, ← hzeros]
  · rintro ⟨⟨sign, hsign, zeros, rfl⟩, hbounded⟩
    have hdigits : ∀ c ∈ List.replicate zeros '0' ++ Nat.toDigits 10 n, c.isDigit = true := by
      intro c hc
      obtain hzero | hdigit := List.mem_append.mp hc
      · rw [List.eq_of_mem_replicate hzero]
        rfl
      · exact Nat.isDigit_of_mem_toDigits (by decide) (by decide) hdigit
    have hne : List.replicate zeros '0' ++ Nat.toDigits 10 n ≠ [] :=
      List.append_ne_nil_of_right_ne_nil _ Nat.toDigits_ne_nil
    have hvalue : Nat.ofDigitChars 10 (List.replicate zeros '0' ++ Nat.toDigits 10 n) 0 = n := by
      rw [Nat.ofDigitChars_append, Nat.ofDigitChars_replicate_zero, Nat.mul_zero,
        Nat.ofDigitChars_ten_toDigits]
    rw [Nat.repr_eq_ofList_toDigits, String.append_assoc, ← String.ofList_append,
      number?_of_digits hsign hne hdigits, hvalue, if_neg (Nat.not_le.mpr hbounded)]

/-! ## Words -/

def flagWords : Bool → List String
  | true => ["true", "1", "yes", "on"]
  | false => ["false", "0", "no", "off"]

/-- One of the words for the truth value, in any case. -/
def WritesFlag (text : String) (b : Bool) : Prop := ∃ word ∈ flagWords b, Text.IsSpelling word text

theorem writesFlag_iff {text : String} {b : Bool} :
    WritesFlag text b ↔ Text.lowerAscii text ∈ flagWords b := by
  have hsmall : ∀ word ∈ flagWords b, ∀ letter ∈ word.toList, letter.isUpper = false := by
    cases b <;> simp [flagWords]
  constructor
  · rintro ⟨word, hword, hspelling⟩
    rwa [(Text.lowerAscii_eq_iff (hsmall word hword) text).mpr hspelling]
  · intro hword
    exact ⟨_, hword, (Text.lowerAscii_eq_iff (hsmall _ hword) text).mp rfl⟩

theorem flag?_eq_some_iff {text : String} {b : Bool} :
    Override.flag? text = some b ↔ WritesFlag text b := by
  rw [writesFlag_iff, Override.flag?]
  generalize Text.lowerAscii text = word
  -- No word stands for both truth values.
  have hone : ∀ word ∈ flagWords true, word ∉ flagWords false := by decide
  change (if word ∈ flagWords true then some true
    else if word ∈ flagWords false then some false else none) = some b ↔ _
  by_cases htrue : word ∈ flagWords true
  · cases b <;> simp [htrue, hone word htrue]
  · cases b <;> simp [htrue]

/-- The word for the format, in any case. -/
inductive WritesFormat (text : String) : LogFormat → Prop where
  | json (h : Text.IsSpelling "json" text) : WritesFormat text .json
  | pretty (h : Text.IsSpelling "pretty" text) : WritesFormat text .pretty

theorem format?_eq_some_iff {text : String} {f : LogFormat} :
    Override.format? text = some f ↔ WritesFormat text f := by
  have hjson := @Text.lowerAscii_eq_iff "json" (by simp) text
  have hpretty := @Text.lowerAscii_eq_iff "pretty" (by simp) text
  rw [Override.format?]
  constructor
  · intro h
    split at h
    · next hword =>
        cases h
        exact .json (hjson.mp hword)
    · next hword =>
        cases h
        exact .pretty (hpretty.mp hword)
    · cases h
  · intro h
    cases h with
    | json h =>
        rw [hjson.mpr h]
        rfl
    | pretty h =>
        rw [hpretty.mpr h]
        rfl

/-! ## Texts of settings -/

namespace Setting

/-- The text stands for the value. -/
def Denotes (text : String) : (setting : Setting) → setting.Value → Prop
  | address | serviceName | level | metricsAddress => fun value => text = value
  | shutdownSeconds | requestMilliseconds | workerMilliseconds | maxBodyBytes => WritesNumber text
  | loggingEnabled | ansi | metricsEnabled => WritesFlag text
  | format => WritesFormat text

/-- What the text of the setting is expected to be, unless any text will do. -/
def expected? : Setting → Option String
  | address | serviceName | level | metricsAddress => none
  | shutdownSeconds | requestMilliseconds | workerMilliseconds | maxBodyBytes =>
    some "expected integer"
  | loggingEnabled | ansi | metricsEnabled => some "expected boolean"
  | format => some "expected json or pretty"

def parse? (text : String) : (setting : Setting) → Option setting.Value
  | address | serviceName | level | metricsAddress => some text
  | shutdownSeconds | requestMilliseconds | workerMilliseconds | maxBodyBytes =>
    Override.number? text
  | loggingEnabled | ansi | metricsEnabled => Override.flag? text
  | format => Override.format? text

theorem parse?_eq_some_iff {text : String} {setting : Setting} {value : setting.Value} :
    setting.parse? text = some value ↔ setting.Denotes text value := by
  cases setting with
  | address | serviceName | level | metricsAddress => exact Option.some_inj
  | shutdownSeconds | requestMilliseconds | workerMilliseconds | maxBodyBytes =>
      exact number?_eq_some_iff
  | loggingEnabled | ansi | metricsEnabled => exact flag?_eq_some_iff
  | format => exact format?_eq_some_iff

theorem Denotes.unique {text : String} {setting : Setting} {value other : setting.Value}
    (h : setting.Denotes text value) (hother : setting.Denotes text other) : value = other :=
  Option.some.inj ((parse?_eq_some_iff.mpr h).symm.trans (parse?_eq_some_iff.mpr hother))

end Setting

end Gatehouse.Config
