/-
Conversions undo `toString`.

A long is shown as digits behind at most a sign, which is what a long is read from.  Dates are
written more rigidly than they are read, and what has to be seen is that each number ends where it
should.  A number of fixed width fills all that is read at once, so it stops there; a signed year is
read as far as digits go, and the mark behind it is no digit; and a fraction is the last thing there
is.
-/
import FrameLang.Proofs.Registry.History
import FrameLang.Proofs.Syntax.Numerals
import FrameLang.Proofs.Typing.Functions
import Mathlib

namespace FrameLang

open Text (padded digits digitsValue isBlank)

/-! ### Padded numbers -/

namespace Text

theorem padded_ne_nil (width n : Nat) : padded width n ≠ [] :=
  List.append_ne_nil_of_right_ne_nil _ Nat.toDigits_ne_nil

theorem length_padded {width n : Nat} (hwidth : 0 < width) (h : n < 10 ^ width) :
    (padded width n).length = width := by
  have hdigits : (digits n).length ≤ width :=
    (Nat.length_toDigits_le_iff (by decide) hwidth).mpr h
  rw [padded, List.length_append, List.length_replicate]
  omega

theorem exists_padded_eq_cons (width n : Nat) :
    ∃ c cs, padded width n = c :: cs ∧ c.isDigit = true := by
  obtain ⟨c, cs, hcs⟩ := List.exists_cons_of_ne_nil (padded_ne_nil width n)
  exact ⟨c, cs, hcs, isDigit_of_mem_padded width n c (hcs ▸ List.mem_cons_self)⟩

theorem isBlank_of_isDigit {c : Char} (h : c.isDigit = true) : isBlank c = false := by
  cases hblank : isBlank c with
  | false => rfl
  | true => rw [Source.isDigit_of_isBlank hblank] at h; cases h

/-- A text without blanks is left as it is. -/
theorem trim_eq_self {text : String} (h : ∀ c ∈ text.toList, isBlank c = false) :
    trim text = text := by
  have hdrop {cs : List Char} (hcs : ∀ c ∈ cs, isBlank c = false) : cs.dropWhile isBlank = cs := by
    cases cs with
    | nil => rfl
    | cons c cs => exact List.dropWhile_cons_of_neg (by simp [hcs c List.mem_cons_self])
  unfold trim
  rw [hdrop h, hdrop fun c hc => h c (List.mem_reverse.mp hc), List.reverse_reverse,
    String.ofList_toList]

end Text

/-! ### Longs -/

namespace Long

theorem toText_of_neg {n : Long} (h : n.toInt < 0) :
    n.toText = String.ofList ('-' :: digits n.toInt.natAbs) := by
  unfold toText
  rw [if_pos h]
  exact (String.ofList_append).symm

theorem isBlank_of_mem_toText (n : Long) : ∀ c ∈ n.toText.toList, isBlank c = false := by
  intro c hc
  rcases lt_or_ge n.toInt 0 with hneg | hpos
  · rw [toText_of_neg hneg, String.toList_ofList, List.mem_cons] at hc
    rcases hc with rfl | hc
    · rfl
    · exact Text.isBlank_of_isDigit (isDigit_of_mem_digits c hc)
  · rw [toText_eq hpos, String.toList_ofList] at hc
    exact Text.isBlank_of_isDigit (isDigit_of_mem_digits c hc)

/-- A long below zero is read from the text that shows it. -/
theorem ofText_toText_of_neg {n : Long} (h : n.toInt < 0) : ofText n.toText = .ok n := by
  have hvalue : Nat.ofDigitChars 10 (digits n.toInt.natAbs) 0 = n.toInt.natAbs :=
    Nat.ofDigitChars_toDigits (by decide) (by decide)
  have hlimit : n.toInt.natAbs ≤ 9223372036854775808 := by
    have := Int64.le_toInt n
    omega
  have hread : readDigits 9223372036854775808 .tooSmall 0 (digits n.toInt.natAbs) =
      .ok n.toInt.natAbs := by
    rw [readDigits_eq isDigit_of_mem_digits (hvalue.trans_le hlimit), hvalue]
  have hne : (digits n.toInt.natAbs).isEmpty = false := by simp [Text.digits]
  have hsign (cs : List Char) : Text.splitSign ('-' :: cs) = (true, cs) := rfl
  rw [toText_of_neg h]
  unfold ofText
  rw [String.toList_ofList, if_neg (by simp), hsign]
  dsimp only
  rw [hne, if_neg Bool.false_ne_true, if_pos rfl, hread]
  change Except.ok (Int64.ofInt (-(n.toInt.natAbs : Int))) = .ok n
  rw [Int.ofNat_natAbs_of_nonpos h.le, neg_neg, Int64.ofInt_toInt]

/-- **A long is read from the text that shows it.** -/
theorem ofText_trim_toText (n : Long) : ofText (Text.trim n.toText) = .ok n := by
  rw [Text.trim_eq_self n.isBlank_of_mem_toText]
  rcases lt_or_ge n.toInt 0 with hneg | hpos
  · exact ofText_toText_of_neg hneg
  · exact ofText_toText hpos

end Long

/-! ### Numbers in a date -/

namespace Calendar

/-- Digits are read up to the width, or up to what is no digit. -/
theorem readDigits_append {width : Nat} {cs rest : List Char} (hne : cs ≠ [])
    (hcs : ∀ c ∈ cs, c.isDigit = true) (hlength : cs.length ≤ width)
    (hstop : cs.length = width ∨ ∀ c ∈ rest.head?, c.isDigit = false) :
    readDigits width (cs ++ rest) = pure (digitsValue cs, rest) := by
  have hrest : (rest.take (width - cs.length)).takeWhile Char.isDigit = [] := by
    rcases hstop with hfull | hmark
    · rw [hfull, Nat.sub_self, List.take_zero, List.takeWhile_nil]
    · cases rest with
      | nil => rw [List.take_nil, List.takeWhile_nil]
      | cons c rest =>
          cases width - cs.length with
          | zero => rfl
          | succ more => exact List.takeWhile_cons_of_neg (by simp [hmark c rfl])
  have hrun : ((cs ++ rest).take width).takeWhile Char.isDigit = cs := by
    rw [List.take_append, List.take_of_length_le hlength, List.takeWhile_append_of_pos hcs, hrest,
      List.append_nil]
  unfold readDigits
  dsimp only
  rw [hrun, List.drop_left, if_neg (by simp [hne]), if_neg (by simpa using hne)]
  rfl

/-- A number that fits into its width is read whatever comes after it. -/
theorem readDigits_padded {width n : Nat} (hwidth : 0 < width) (h : n < 10 ^ width)
    (rest : List Char) : readDigits width (padded width n ++ rest) = pure (n, rest) := by
  have hlength := Text.length_padded hwidth h
  rw [readDigits_append (Text.padded_ne_nil width n) (Text.isDigit_of_mem_padded width n)
    hlength.le (Or.inl hlength), Text.digitsValue_padded]

/-- No blanks are skipped in front of a number. -/
theorem dropWhile_isBlank_padded (width n : Nat) (rest : List Char) :
    (padded width n ++ rest).dropWhile isBlank = padded width n ++ rest := by
  obtain ⟨c, cs, hcs, hc⟩ := Text.exists_padded_eq_cons width n
  rw [hcs]
  exact List.dropWhile_cons_of_neg (by simp [Text.isBlank_of_isDigit hc])

theorem readPart_padded {low high n : Nat} (hlow : low ≤ n) (hhigh : n ≤ high) (hwidth : high < 100)
    (rest : List Char) : readPart low high (padded 2 n ++ rest) = pure (n, rest) := by
  unfold readPart
  rw [dropWhile_isBlank_padded, readDigits_padded (by decide) (by omega), pure_bind]
  exact if_pos ⟨hlow, hhigh⟩

theorem readMark_cons (mark : Char) (rest : List Char) : readMark mark (mark :: rest) = pure rest :=
  if_pos (beq_self_eq_true mark)

/-! ### Years -/

/-- The digits of a signed year go up to the mark behind it. -/
theorem readDigits_year (n : Nat) (rest : List Char) :
    let cs := padded 4 n ++ '-' :: rest
    readDigits cs.length cs = pure (n, '-' :: rest) := by
  intro cs
  have hlength : (padded 4 n).length ≤ cs.length := by
    rw [List.length_append]
    exact Nat.le_add_right _ _
  rw [readDigits_append (Text.padded_ne_nil 4 n) (Text.isDigit_of_mem_padded 4 n) hlength
    (Or.inr (by simp)), Text.digitsValue_padded]

theorem readSignedYear_of_isDigit {c : Char} {cs : List Char} (hc : c.isDigit = true) :
    readSignedYear (c :: cs) = (readDigits 4 (c :: cs)).map fun (n, rest) => ((n : Int), rest) := by
  unfold readSignedYear
  split
  · rename_i heq
    obtain ⟨rfl, -⟩ := List.cons.inj heq
    cases hc
  · rename_i heq
    obtain ⟨rfl, -⟩ := List.cons.inj heq
    cases hc
  · rfl

theorem readSignedYear_writtenYear (year : Int) (rest : List Char) :
    readSignedYear ((writtenYear year ++ '-' :: rest).dropWhile isBlank) =
      pure (year, '-' :: rest) := by
  unfold writtenYear
  split
  · rename_i hshort
    obtain ⟨c, cs, hcs, hc⟩ := Text.exists_padded_eq_cons 4 year.toNat
    have hread : readDigits 4 (padded 4 year.toNat ++ '-' :: rest) =
        pure (year.toNat, '-' :: rest) := readDigits_padded (by decide) (by omega) _
    rw [dropWhile_isBlank_padded]
    rw [hcs, List.cons_append] at hread ⊢
    rw [readSignedYear_of_isDigit hc, hread]
    exact congrArg (fun y => Except.ok (y, '-' :: rest)) (Int.toNat_of_nonneg hshort.1)
  · have hread := readDigits_year year.natAbs rest
    split
    · refine (congrArg (Except.map _) hread).trans ?_
      exact congrArg (fun y => Except.ok (y, '-' :: rest)) (by omega)
    · refine (congrArg (Except.map _) hread).trans ?_
      exact congrArg (fun y => Except.ok (y, '-' :: rest)) (by omega)

theorem readYear_writtenYear {year : Int} (hlow : -2147483648 ≤ year) (hhigh : year < 2147483648)
    (rest : List Char) : readYear (writtenYear year ++ '-' :: rest) = pure (year, '-' :: rest) := by
  unfold readYear
  rw [readSignedYear_writtenYear, pure_bind]
  exact if_pos ⟨hlow, hhigh⟩

/-! ### Dates -/

theorem daysInMonth_le (year : Int) (month : Nat) : daysInMonth year month ≤ 31 := by
  unfold daysInMonth
  split
  · split <;> decide
  · split <;> decide

/-- A written date is read as its parts, whatever comes after it. -/
theorem readDateParts_written (d : Date) (rest : List Char) :
    readDateParts (d.written ++ rest) = pure ((d.year, d.month, d.day), rest) := by
  obtain ⟨hyear, hyear', hmonth, hmonth', hday, hday'⟩ := d.valid
  have hday31 : d.day ≤ 31 := hday'.trans (daysInMonth_le _ _)
  simp only [readDateParts, Date.written, List.append_assoc, List.cons_append,
    readYear_writtenYear (show -2147483648 ≤ d.year by omega) (show d.year < 2147483648 by omega),
    readMark_cons, readPart_padded hmonth hmonth' (by decide),
    readPart_padded hday hday31 (by decide), pure_bind]

end Calendar

theorem Date.ofParts?_eq (d : Date) : ofParts? d.year d.month d.day = some d := dif_pos d.valid

open Calendar

/-- **A date is read from the text that shows it.** -/
theorem Date.ofText_toText (d : Date) : ofText d.toText = .ok d := by
  have hparts := readDateParts_written d []
  rw [List.append_nil] at hparts
  unfold ofText toText read
  rw [String.toList_ofList, hparts, pure_bind]
  dsimp only
  rw [ofParts?_eq]
  rfl

/-! ### Date-times -/

namespace DateTime

theorem shown_of_endsMinute {t : DateTime} (h : EndsMinute t.second t.nanos) : t.shown = t :=
  dif_pos h

theorem shown_of_not_endsMinute {t : DateTime} (h : ¬EndsMinute t.second t.nanos) :
    t.shown =
      { t with
        second := t.second + 1
        nanos := t.nanos - 1000000000
        valid := ⟨t.valid.hour_lt, t.valid.minute_lt, by have := t.valid.second_lt; omega,
          by have := t.valid.nanos_lt; omega⟩ } :=
  dif_neg h

theorem shown_eq_iff (t : DateTime) : t.shown = t ↔ EndsMinute t.second t.nanos := by
  refine ⟨fun heq => ?_, shown_of_endsMinute⟩
  by_contra h
  have hsecond := congrArg DateTime.second heq
  rw [shown_of_not_endsMinute h] at hsecond
  exact absurd hsecond (Nat.succ_ne_self _)

end DateTime

namespace Calendar

/-- A fraction is read from as many of its groups of digits as are written. -/
theorem readFraction_padded {width n : Nat} (hwidth : 0 < width) (hnine : width ≤ 9)
    (h : n < 10 ^ width) :
    readFraction ('.' :: padded width n) = pure (n * 10 ^ (9 - width), []) := by
  have hlength := Text.length_padded hwidth h
  have hread : readDigits 9 (padded width n ++ []) = pure (digitsValue (padded width n), []) :=
    readDigits_append (Text.padded_ne_nil width n) (Text.isDigit_of_mem_padded width n)
      (hlength.trans_le hnine) (Or.inr (by simp))
  rw [List.append_nil, Text.digitsValue_padded] at hread
  simp only [readFraction]
  rw [hread, pure_bind, hlength]
  rfl

theorem readFraction_writtenFraction {nanos : Nat} (h : nanos < 1000000000) :
    readFraction (writtenFraction nanos) = pure (nanos, []) := by
  unfold writtenFraction
  split
  · rename_i hzero
    rw [hzero]
    rfl
  · split
    · rename_i hthree
      have hnanos : nanos / 1000000 * 1000000 = nanos := by omega
      rw [readFraction_padded (by decide) (by decide) (by omega)]
      exact congrArg (fun n => Except.ok (n, [])) hnanos
    · split
      · rename_i hsix
        have hnanos : nanos / 1000 * 1000 = nanos := by omega
        rw [readFraction_padded (by decide) (by decide) (by omega)]
        exact congrArg (fun n => Except.ok (n, [])) hnanos
      · rw [readFraction_padded (by decide) (by decide) (by omega), Nat.sub_self, pow_zero,
          Nat.mul_one]

/-- A written second is read as it was, unless it is a leap second inside a minute. -/
theorem readSeconds_written (t : DateTime) :
    readSeconds (':' :: padded 2 (t.second + t.nanos / 1000000000) ++
      writtenFraction (t.nanos % 1000000000)) = pure ((t.shown.second, t.shown.nanos), []) := by
  obtain ⟨-, -, hsecond, hnanos⟩ := t.valid
  have hwritten : t.second + t.nanos / 1000000000 ≤ 60 := by omega
  simp only [readSeconds, List.cons_append, readMark_cons, readPart_padded (Nat.zero_le _) hwritten
    (by decide), readFraction_writtenFraction (Nat.mod_lt t.nanos (by decide)), pure_bind]
  rcases lt_or_ge t.nanos 1000000000 with hplain | hlong
  · rw [DateTime.shown_of_endsMinute fun h => absurd hplain h.not_gt, if_neg (by omega),
      Nat.div_eq_of_lt hplain, Nat.mod_eq_of_lt hplain, Nat.add_zero]
  · have hdiv : t.nanos / 1000000000 = 1 := by omega
    have hmod : t.nanos % 1000000000 = t.nanos - 1000000000 := by omega
    rw [hdiv, hmod]
    by_cases hlast : t.second = 59
    · rw [DateTime.shown_of_endsMinute fun _ => hlast, if_pos (by omega),
        Nat.add_sub_cancel' hlong, hlast]
    · rw [DateTime.shown_of_not_endsMinute fun h => hlast (h hlong), if_neg (by omega)]

end Calendar

theorem DateTime.ofParts?_shown (t : DateTime) :
    ofParts? t.date t.hour t.minute t.shown.second t.shown.nanos = some t.shown := by
  by_cases h : EndsMinute t.second t.nanos
  · rw [shown_of_endsMinute h]
    exact dif_pos ⟨t.valid, h⟩
  · have hplain : EndsMinute (t.second + 1) (t.nanos - 1000000000) := by
      have := t.valid.nanos_lt
      omega
    have hvalid := t.shown.valid
    rw [shown_of_not_endsMinute h] at hvalid ⊢
    exact dif_pos ⟨hvalid, hplain⟩

/-- **The text of a date-time is read as the time that it shows**, and the first of the two ways of
reading will do. -/
theorem DateTime.ofText?_toText (t : DateTime) : ofText? t.toText = some t.shown := by
  obtain ⟨hhour, hminute, -, -⟩ := t.valid
  have hread : readDateTime readSeconds t.written = .ok t.shown := by
    have hseconds := readSeconds_written t
    rw [List.cons_append] at hseconds
    simp only [readDateTime, DateTime.written, List.append_assoc, List.cons_append,
      readDateParts_written, readMark_cons,
      readPart_padded (Nat.zero_le _) (show t.hour ≤ 23 by omega) (by decide),
      readPart_padded (Nat.zero_le _) (show t.minute ≤ 59 by omega) (by decide), hseconds,
      pure_bind, Date.ofParts?_eq, Option.bind_some, ofParts?_shown]
    rfl
  unfold ofText? toText read?
  rw [String.toList_ofList, hread]
  rfl

/-- A leap second with its fraction, in a year beyond four digits. -/
example : (DateTime.ofText? "+12345-06-30T23:59:60.250").map (·.toText) =
    some "+12345-06-30T23:59:60.250" := by decide +kernel

/-! ### Calls -/

namespace Builtin

theorem apply_toLong (f : Function) (n : Long) :
    apply .toLong f [.string n.toText] = .ok (.long n) := by
  simp only [apply, stringArgument, bind, Except.bind, n.ofText_trim_toText]
  rfl

theorem apply_toDate (f : Function) (d : Date) :
    apply .toDate f [.string d.toText] = .ok (.date d) := by
  change dateOfText f d.toText = _
  rw [dateOfText, d.ofText_toText]

theorem apply_toDateTime (f : Function) (t : DateTime) :
    apply .toDateTime f [.string t.toText] = .ok (.dateTime t.shown) := by
  change dateTimeOfText f t.toText = _
  rw [dateTimeOfText, t.ofText?_toText]

end Builtin

/-- A built-in function is called by its name, where no function of the program has it. -/
theorem call_builtin (deeper : RunStatements) (env : Environment) (operation : Builtin)
    (arguments : List Value) :
    call deeper { env with registry := .defaults, functions := ∅ } operation.function.name
        arguments =
      operation.function.invoke { env with registry := .defaults, functions := ∅ } arguments := by
  have hfound : Registry.defaults.get? operation.function.name = some operation.function := by
    rw [Registry.get?_defaults_eq, Registry.builtin?,
      Registry.find?_isCalled_eq_some_iff (List.Subset.refl _)]
    exact ⟨List.mem_map_of_mem (by cases operation <;> decide), beq_self_eq_true _⟩
  unfold call
  dsimp only
  rw [hfound]
  rfl

/-- A built-in function that prints nothing answers what it computes from its arguments. -/
theorem Builtin.invoke_eq {operation : Builtin} (hprint : operation ≠ .print)
    (hprintln : operation ≠ .println) (env : Environment) (arguments : List Value)
    (htakes : operation.function.takes arguments.length = true) :
    operation.function.invoke env arguments =
      Run.orReport (operation.apply operation.function arguments) := by
  have hperform : operation.function.perform env arguments =
      Run.orReport (operation.apply operation.function arguments) := by
    cases operation <;> first | rfl | contradiction
  have hreceived := received_eq htakes
  unfold Function.received at hreceived
  unfold Function.takes at htakes
  unfold Function.invoke
  cases hparameters : operation.function.parameters with
  | none => exact hperform
  | some parameters =>
      rw [hparameters] at hreceived htakes
      dsimp only at hreceived ⊢
      rw [if_pos (by simpa using htakes), hreceived, hperform]

/-- What a function makes of the text that `toString` shows of a value. -/
def readBack (deeper : RunStatements) (env : Environment) (conversion : String) (v : Value) :
    Run Value := do
  let text ← call deeper env "toString" [v]
  call deeper env conversion [text]

/-- With the built-in functions under their names, what is read back is what the conversion makes of
the text. -/
theorem readBack_builtin (deeper : RunStatements) (env : Environment) (conversion : Builtin)
    {v w : Value} (hprint : conversion ≠ .print) (hprintln : conversion ≠ .println)
    (htakes : conversion.function.takes 1 = true)
    (happly : conversion.apply conversion.function [.string v.text] = .ok w) :
    readBack deeper { env with registry := .defaults, functions := ∅ } conversion.function.name v =
      pure w := by
  have hshow : call deeper { env with registry := .defaults, functions := ∅ } "toString" [v] =
      pure (.string v.text) :=
    (call_builtin deeper env .toString [v]).trans
      (Builtin.invoke_eq (by decide) (by decide) _ [v] rfl)
  unfold readBack
  rw [hshow, pure_bind]
  refine (call_builtin deeper env conversion _).trans ?_
  rw [Builtin.invoke_eq hprint hprintln _ [.string v.text] htakes, happly]
  rfl

theorem readBack_dateTime (deeper : RunStatements) (env : Environment) (t : DateTime) :
    readBack deeper { env with registry := .defaults, functions := ∅ } "toDateTime" (.dateTime t) =
      pure (.dateTime t.shown) :=
  readBack_builtin deeper env .toDateTime (by decide) (by decide) rfl (Builtin.apply_toDateTime _ t)

/-- **Conversions undo `toString`.**  Where the built-in functions have their names, every long,
every date of any year that there is, and every date-time whose leap second, if it is one, ends its
minute comes back from its text, with any fraction; nothing is reported or changed.  A leap second
inside a minute, which only the host can make, comes back as the plain second that its text shows,
so as another time. -/
theorem conversions_undo_toString (deeper : RunStatements) (env : Environment) :
    let builtins : Environment := { env with registry := .defaults, functions := ∅ }
    (∀ n : Long, readBack deeper builtins "toLong" (.long n) = pure (.long n)) ∧
    (∀ d : Date, readBack deeper builtins "toDate" (.date d) = pure (.date d)) ∧
    ∀ t : DateTime,
      readBack deeper builtins "toDateTime" (.dateTime t) = pure (.dateTime t.shown) ∧
        (t.shown = t ↔ DateTime.EndsMinute t.second t.nanos) := by
  intro builtins
  refine ⟨fun n => ?_, fun d => ?_, fun t => ⟨?_, t.shown_eq_iff⟩⟩
  · exact readBack_builtin deeper env .toLong (by decide) (by decide) rfl (Builtin.apply_toLong _ n)
  · exact readBack_builtin deeper env .toDate (by decide) (by decide) rfl (Builtin.apply_toDate _ d)
  · exact readBack_dateTime deeper env t

/-- The leap second at 23:59:60 UTC where clocks stand 1:56:05 ahead is shown as 01:56:05, and so it
is read. -/
theorem leap_second_inside_minute :
    let t : DateTime :=
      { date := ⟨2020, 1, 1, by decide⟩, hour := 1, minute := 56, second := 4, nanos := 1333333333,
        valid := by decide }
    readBack (fun _ _ => pure .void) { registry := .defaults } "toDateTime" (.dateTime t) ≠
      pure (.dateTime t) := by
  intro t heq
  rw [readBack_dateTime (fun _ _ => pure .void) { registry := .defaults } t] at heq
  have hresult := congrArg (fun run : Run Value => (run {}).1) heq
  have hshown : t.shown = t := Value.dateTime.inj (Except.ok.inj hresult)
  exact absurd (t.shown_eq_iff.mp hshown) (by decide)

end FrameLang
