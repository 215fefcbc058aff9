/-
Registered functions keep to their rules.

A registered function announces the type of its result for the types of its arguments.  A built-in
function keeps that promise, which is proved here function by function: the result is of the type
announced, or it is `void`, and then some argument was.

Of the host's functions nothing can be proved, so `KeepsRule` says what is to be assumed of one.
-/
import FrameLang.Proofs.Meets
import FrameLang.Proofs.Typing.Operators

namespace FrameLang

open Run

/-! ### What a function is given and what it answers -/

namespace Bindings

variable {α : Type}

theorem find?_foldl_insert_of_notMem {pairs : List (String × α)} {name : String}
    (h : name ∉ pairs.map Prod.fst) (b : Bindings α) :
    (pairs.foldl (fun b (name, a) => b.insert name a) b).find? name = b.find? name := by
  induction pairs generalizing b with
  | nil => rfl
  | cons pair pairs ih =>
      rw [List.map_cons, List.mem_cons, not_or] at h
      rw [List.foldl_cons, ih h.2, find?_insert_of_ne _ _ h.1]

end Bindings

/-- Parameters with different names are bound to the arguments in their places. -/
theorem boundArguments_eq {parameters : List String} (hnodup : parameters.Nodup)
    {arguments : List Value} (hlength : parameters.length = arguments.length) :
    boundArguments parameters arguments = arguments := by
  have hbound : ∀ b : Bindings Value, parameters.filterMap ((parameters.zip arguments).foldl
      (fun b (name, a) => b.insert name a) b).find? = arguments := by
    induction parameters generalizing arguments with
    | nil =>
        intro b
        exact (List.length_eq_zero_iff.mp hlength.symm).symm
    | cons name parameters ih =>
        intro b
        cases arguments with
        | nil => cases hlength
        | cons v arguments =>
            rw [List.nodup_cons] at hnodup
            rw [List.length_cons, List.length_cons, Nat.add_right_cancel_iff] at hlength
            have hfresh : name ∉ (parameters.zip arguments).map Prod.fst := by
              rw [List.map_fst_zip (Nat.le_of_eq hlength)]
              exact hnodup.1
            rw [List.zip_cons_cons, List.foldl_cons, List.filterMap_cons,
              Bindings.find?_foldl_insert_of_notMem hfresh, Bindings.find?_insert_self]
            exact congrArg (v :: ·) (ih hnodup.2 hlength _)
  exact hbound ∅

namespace Function

/-- The arguments as the function's body finds them. -/
def received (f : Function) (arguments : List Value) : List Value :=
  match f.parameters with
  | none => arguments
  | some parameters => boundArguments parameters arguments

/-- What the body makes of the arguments it finds. -/
def answer (f : Function) (host : Host) (arguments : List Value) : Except Error Value :=
  match f.body with
  | .builtin operation => operation.apply f arguments
  | .host key => (host key arguments).result

theorem meets_perform (f : Function) (env : Environment) (arguments : List Value) (s : Store) :
    Meets (f.perform env arguments) s
      (fun v s' => f.answer env.host arguments = .ok v ∧ s'.vars = s.vars)
      fun stop _ => ∃ e, stop = .failed e ∧ f.answer env.host arguments = .error e := by
  have hprint : ∀ text answer, f.answer env.host arguments = answer →
      Meets (do print env.sink text; orReport answer) s
        (fun v s' => f.answer env.host arguments = .ok v ∧ s'.vars = s.vars)
        fun stop _ => ∃ e, stop = .failed e ∧ f.answer env.host arguments = .error e := by
    rintro text answer rfl
    refine meets_bind (meets_emit (Q := fun _ s' => s'.vars = s.vars) rfl) fun _ _ hs' => ?_
    exact meets_orReport (fun v hv => ⟨hv, hs'⟩) fun e he => ⟨e, rfl, he⟩
  unfold perform
  split
  · exact hprint _ (.ok .void) (by rw [answer]; simp [Builtin.apply, *])
  · exact hprint _ (.ok .void) (by rw [answer]; simp [Builtin.apply, *])
  · exact meets_orReport (fun v hv => ⟨by simp only [answer, *], rfl⟩) fun e he =>
      ⟨e, rfl, by simp only [answer, *]⟩
  · exact hprint _ _ (by simp only [answer, *])

/-- A call with as many arguments as the function takes ends as the function answers. -/
theorem meets_invoke {f : Function} {arguments : List Value} (htakes : f.takes arguments.length)
    (env : Environment) (s : Store) :
    Meets (f.invoke env arguments) s
      (fun v s' => f.answer env.host (f.received arguments) = .ok v ∧ s'.vars = s.vars)
      fun stop _ => ∃ e, stop = .failed e ∧
        f.answer env.host (f.received arguments) = .error e := by
  unfold invoke received
  unfold takes at htakes
  cases hparameters : f.parameters with
  | none => exact meets_perform f env arguments s
  | some parameters =>
      rw [hparameters] at htakes
      have hlength : parameters.length = arguments.length := by simpa using htakes
      simp only [if_pos hlength]
      exact meets_perform f env _ s

end Function

/-! ### What the built-in functions compute -/

namespace Value

theorem yields_asLong (v : Value) : Yields v.asLong fun n => v = .long n := by
  cases v <;> rfl

theorem yields_asString (v : Value) : Yields v.asString fun s => v = .string s := by
  cases v <;> rfl

theorem yields_asDate (v : Value) : Yields v.asDate fun d => v = .date d := by
  cases v <;> rfl

end Value

namespace Builtin

open Value

theorem yields_stringTest (test : List Char → List Char → Bool) (v other : Value) :
    Yields (stringTest test v other) fun r =>
      r.type = .boolean ∨ r = .void ∧ (v = .void ∨ other = .void) := by
  unfold stringTest
  split
  · exact Or.inr ⟨rfl, Or.inl rfl⟩
  · exact Or.inr ⟨rfl, Or.inr rfl⟩
  · exact (yields_asString _).bind fun _ _ => (yields_asString _).bind fun _ _ => Or.inl rfl

theorem yields_mapString (change : String → String) (v : Value) :
    Yields (mapString change v) fun r => r.type = .string ∨ r = .void ∧ v = .void := by
  unfold mapString
  split
  · exact Or.inr ⟨rfl, rfl⟩
  · exact (yields_asString _).bind fun _ _ => Or.inl rfl

theorem yields_stringArgument (f : Function) (v : Value) :
    Yields (stringArgument f v) fun _ => True := by
  cases v <;> trivial

theorem yields_textPosition (length : Nat) (n : Long) :
    Yields (textPosition length n) fun _ => True := by
  unfold textPosition
  split
  · exact rfl
  · trivial

theorem yields_slice (f : Function) (text begin : Value) (stop : Option Value) :
    Yields (slice f text begin stop) fun r => r.type = .string ∨ r = .void ∧ text = .void := by
  unfold slice
  split
  · rename_i hvoid
    cases text with
    | void => exact Or.inr ⟨rfl, rfl⟩
    | _ => cases hvoid
  · refine (yields_asString text).bind fun chars _ => (yields_asLong begin).bind fun first _ => ?_
    have hstop : Yields (stop.mapM asLong) fun _ => True := by
      cases stop with
      | none => trivial
      | some v => exact (yields_asLong v).bind fun _ _ => trivial
    refine hstop.bind fun last _ => (yields_textPosition _ first).bind fun i _ => ?_
    have hlast : Yields (last.elim (.ok chars.toList.length) (textPosition chars.toList.length))
        fun _ => True := by
      cases last with
      | none => trivial
      | some n => exact yields_textPosition _ n
    refine hlast.bind fun j _ => ?_
    dsimp only
    split
    · exact rfl
    · exact Or.inl rfl

theorem yields_absoluteValue (f : Function) (v : Value) :
    Yields (absoluteValue f v) fun r => r.type = v.type := by
  cases v <;> rfl

theorem yields_datePart (f : Function) (v : Value) : Yields (datePart f v) fun _ => True := by
  refine (yields_asLong v).bind fun n _ => ?_
  dsimp only
  split
  · exact rfl
  · split
    · exact rfl
    · trivial

theorem yields_dateOfText (f : Function) (text : String) :
    Yields (dateOfText f text) fun r => r.type = .date := by
  unfold dateOfText
  split
  · rfl
  · rfl

theorem yields_dateOfParts (f : Function) (year month day : Value) :
    Yields (dateOfParts f year month day) fun r => r.type = .date := by
  refine (yields_asLong year).bind fun y _ => (yields_datePart f month).bind fun m _ =>
    (yields_datePart f day).bind fun d _ => ?_
  split
  · exact rfl
  · exact rfl

theorem yields_dateTimeOfText (f : Function) (text : String) :
    Yields (dateTimeOfText f text) fun r => r.type = .dateTime := by
  unfold dateTimeOfText
  split
  · rfl
  · rfl

theorem yields_dateTimeOfParts (f : Function) (year : Value) (parts : List Value) :
    Yields (dateTimeOfParts f year parts) fun r => r.type = .dateTime := by
  refine (yields_asLong year).bind fun y _ =>
    (Yields.mapM fun v _ => yields_datePart f v).bind fun ns _ => ?_
  dsimp only
  split
  · exact rfl
  · exact rfl

theorem yields_areWithin (first second days : Value) :
    Yields (areWithin first second days) fun r => r.type = .boolean :=
  (yields_asDate first).bind fun _ _ => (yields_asDate second).bind fun _ _ =>
    (yields_asLong days).bind fun _ _ => rfl

/-! ### What the rules announce -/

theorem eq_of_ofStrings {result t : ValueType} {types : List ValueType}
    (h : ofStrings result types = some t) : (∀ u ∈ types, u = .string) ∧ t = result := by
  unfold ofStrings at h
  split at h
  · rename_i hall
    cases h
    exact ⟨by simpa using hall, rfl⟩
  · cases h

theorem eq_of_substrType {types : List ValueType} {t : ValueType} (h : substrType types = some t) :
    (types = [.string, .long] ∨ types = [.string, .long, .long]) ∧ t = .string := by
  unfold substrType at h
  split at h
  · cases h
    exact ⟨Or.inl rfl, rfl⟩
  · cases h
    exact ⟨Or.inr rfl, rfl⟩
  · cases h

theorem eq_of_absType {types : List ValueType} {t : ValueType} (h : absType types = some t) :
    types = [t] ∧ t ≠ .void := by
  unfold absType at h
  split at h
  · split at h
    · rename_i hnumber
      cases h
      exact ⟨rfl, by rintro rfl; cases hnumber⟩
    · cases h
  · cases h

theorem eq_of_toDateType {types : List ValueType} {t : ValueType} (h : toDateType types = some t) :
    (types = [.string] ∨ types = [.long, .long, .long]) ∧ t = .date := by
  unfold toDateType at h
  split at h
  · cases h
    exact ⟨Or.inl rfl, rfl⟩
  · cases h
    exact ⟨Or.inr rfl, rfl⟩
  · cases h

theorem eq_of_toDateTimeType {types : List ValueType} {t : ValueType}
    (h : toDateTimeType types = some t) :
    (types = [.string] ∨ 5 ≤ types.length ∧ types.length ≤ 7 ∧ ∀ u ∈ types, u = .long) ∧
      t = .dateTime := by
  unfold toDateTimeType at h
  split at h
  · cases h
    exact ⟨Or.inl rfl, rfl⟩
  · split at h
    · rename_i hlongs
      cases h
      exact ⟨Or.inr (by simpa using hlongs), rfl⟩
    · cases h

theorem eq_of_withinDaysType {types : List ValueType} {t : ValueType}
    (h : withinDaysType types = some t) : types = [.date, .date, .long] ∧ t = .boolean := by
  unfold withinDaysType at h
  split at h
  · cases h
    exact ⟨rfl, rfl⟩
  · cases h

end Builtin

/-! ### Rules that are kept -/

namespace Known

variable {ks : List Known} {arguments : List Value}

/-- If an argument came out `void` though its type is known, it was not known exactly. -/
theorem exact_of_void_mem (h : List.Forall₂ Fits ks arguments) (hks : ∀ k ∈ ks, k.type ≠ .void)
    (hvoid : .void ∈ arguments) : ks.all exact = false := by
  induction h with
  | nil => cases hvoid
  | @cons k v ks arguments hk _ ih =>
      rw [List.all_cons, Bool.and_eq_false_iff]
      rcases List.mem_cons.mp hvoid with rfl | hrest
      · rcases hk.type_eq (hks k (by simp)) with htype | ⟨_, hexact⟩
        · exact absurd htype.symm (hks k (by simp))
        · exact Or.inl hexact
      · exact Or.inr (ih (fun k hk => hks k (by simp [hk])) hrest)

theorem fits_result (h : List.Forall₂ Fits ks arguments) (hks : ∀ k ∈ ks, k.type ≠ .void)
    {t : ValueType} {v : Value} (hv : v.type = t ∨ v = .void ∧ .void ∈ arguments) :
    Fits { type := t, exact := ks.all exact } v := by
  rcases hv with htype | ⟨rfl, hvoid⟩
  · exact fits_of_type htype
  · exact fits_void (exact_of_void_mem h hks hvoid)

theorem type_ne_void_of_map {types : List ValueType} (h : ks.map type = types)
    (htypes : .void ∉ types) : ∀ k ∈ ks, k.type ≠ .void := by
  intro k hk hvoid
  exact htypes (h ▸ List.mem_map.mpr ⟨k, hk, hvoid⟩)

end Known

namespace Builtin

section Rules

variable {ks : List Known} {arguments : List Value} {v w : Value} {t : ValueType} {f : Function}

theorem fits_stringTest (hfits : List.Forall₂ Known.Fits ks [v, w])
    (htype : ofStrings .boolean (ks.map Known.type) = some t)
    (test : List Char → List Char → Bool) :
    Yields (stringTest test v w) (Known.Fits { type := t, exact := ks.all Known.exact }) := by
  obtain ⟨hstrings, rfl⟩ := eq_of_ofStrings htype
  have hks : ∀ k ∈ ks, k.type ≠ .void :=
    Known.type_ne_void_of_map rfl fun h => nomatch hstrings _ h
  refine (yields_stringTest test v w).imp fun r hr => Known.fits_result hfits hks ?_
  rcases hr with hr | ⟨rfl, rfl | rfl⟩
  · exact Or.inl hr
  · exact Or.inr ⟨rfl, by simp⟩
  · exact Or.inr ⟨rfl, by simp⟩

theorem fits_mapString (hfits : List.Forall₂ Known.Fits ks [v])
    (htype : ofStrings .string (ks.map Known.type) = some t) (change : String → String) :
    Yields (mapString change v) (Known.Fits { type := t, exact := ks.all Known.exact }) := by
  obtain ⟨hstrings, rfl⟩ := eq_of_ofStrings htype
  have hks : ∀ k ∈ ks, k.type ≠ .void :=
    Known.type_ne_void_of_map rfl fun h => nomatch hstrings _ h
  refine (yields_mapString change v).imp fun r hr => Known.fits_result hfits hks ?_
  rcases hr with hr | ⟨rfl, rfl⟩
  · exact Or.inl hr
  · exact Or.inr ⟨rfl, by simp⟩

theorem fits_substr (hfits : List.Forall₂ Known.Fits ks arguments)
    (htype : substrType (ks.map Known.type) = some t) :
    Yields (substr.apply f arguments)
      (Known.Fits { type := t, exact := ks.all Known.exact }) := by
  obtain ⟨htypes, rfl⟩ := eq_of_substrType htype
  have hks : ∀ k ∈ ks, k.type ≠ .void := Known.type_ne_void_of_map rfl (by
    rcases htypes with h | h <;> simp [h])
  have hslice : ∀ text first stop, text ∈ arguments → Yields (slice f text first stop)
      (Known.Fits { type := .string, exact := ks.all Known.exact }) := by
    intro text first stop hmem
    refine (yields_slice _ text first stop).imp fun r hr => Known.fits_result hfits hks ?_
    rcases hr with hr | ⟨rfl, rfl⟩
    · exact Or.inl hr
    · exact Or.inr ⟨rfl, hmem⟩
  rcases htypes with h | h
  · have hcount : ks.length = 2 := by simpa using congrArg List.length h
    obtain ⟨text, first, rfl⟩ := List.length_eq_two.mp (hfits.length_eq ▸ hcount)
    exact hslice text first none (by simp)
  · have hcount : ks.length = 3 := by simpa using congrArg List.length h
    obtain ⟨text, first, last, rfl⟩ := List.length_eq_three.mp (hfits.length_eq ▸ hcount)
    exact hslice text first (some last) (by simp)

theorem fits_abs (hfits : List.Forall₂ Known.Fits ks arguments)
    (htype : absType (ks.map Known.type) = some t) :
    Yields (abs.apply f arguments) (Known.Fits { type := t, exact := ks.all Known.exact }) := by
  obtain ⟨hks, ht⟩ := eq_of_absType htype
  obtain ⟨k, rfl, rfl⟩ : ∃ k, ks = [k] ∧ k.type = t := by
    simpa [List.map_eq_cons_iff] using hks
  obtain ⟨v, rfl⟩ := List.length_eq_one_iff.mp hfits.length_eq.symm
  have hk : ∀ k' ∈ [k], k'.type ≠ .void := by simpa using ht
  refine Yields.imp (yields_absoluteValue f v) fun r hr => Known.fits_result hfits hk ?_
  cases hfits with
  | cons hv _ =>
      rcases hv.type_eq ht with hv | ⟨rfl, _⟩
      · exact Or.inl (hr.trans hv)
      · cases r with
        | void => exact Or.inr ⟨rfl, by simp⟩
        | _ => cases hr

theorem fits_toDate (hfits : List.Forall₂ Known.Fits ks arguments)
    (htype : toDateType (ks.map Known.type) = some t) :
    Yields (toDate.apply f arguments)
      (Known.Fits { type := t, exact := ks.all Known.exact }) := by
  obtain ⟨htypes, rfl⟩ := eq_of_toDateType htype
  rcases htypes with h | h
  · have hcount : ks.length = 1 := by simpa using congrArg List.length h
    obtain ⟨v, rfl⟩ := List.length_eq_one_iff.mp (hfits.length_eq ▸ hcount)
    exact Yields.imp (yields_dateOfText f _) fun _ h => Known.fits_of_type h
  · have hcount : ks.length = 3 := by simpa using congrArg List.length h
    obtain ⟨year, month, day, rfl⟩ := List.length_eq_three.mp (hfits.length_eq ▸ hcount)
    exact Yields.imp (yields_dateOfParts f _ _ _) fun _ h => Known.fits_of_type h

theorem fits_toDateTime (hfits : List.Forall₂ Known.Fits ks arguments)
    (htype : toDateTimeType (ks.map Known.type) = some t) :
    Yields (toDateTime.apply f arguments)
      (Known.Fits { type := t, exact := ks.all Known.exact }) := by
  obtain ⟨htypes, rfl⟩ := eq_of_toDateTimeType htype
  rcases htypes with h | ⟨hmin, hmax, _⟩
  · have hcount : ks.length = 1 := by simpa using congrArg List.length h
    obtain ⟨v, rfl⟩ := List.length_eq_one_iff.mp (hfits.length_eq ▸ hcount)
    exact Yields.imp (yields_dateTimeOfText f _) fun _ h => Known.fits_of_type h
  · rw [List.length_map, hfits.length_eq] at hmin hmax
    obtain ⟨year, first, parts, rfl⟩ : ∃ year first parts,
        arguments = year :: first :: parts := by
      rcases arguments with _ | ⟨year, _ | ⟨first, parts⟩⟩
      · simp at hmin
      · simp at hmin
      · exact ⟨year, first, parts, rfl⟩
    have hparts : 4 ≤ (first :: parts).length ∧ (first :: parts).length ≤ 6 := by
      simp only [List.length_cons] at hmin hmax ⊢
      omega
    change Yields (if 4 ≤ (first :: parts).length ∧ (first :: parts).length ≤ 6 then
      dateTimeOfParts f year (first :: parts) else _) _
    rw [if_pos hparts]
    exact (yields_dateTimeOfParts _ _ _).imp fun _ h => Known.fits_of_type h

/-- **A built-in function keeps its rule.**  For arguments that are in keeping with what is known,
and that the function's rule announces a type for, the function answers with a value of that type,
or with `void` if it was given `void`, or fails for a reason of its own. -/
theorem yields_apply {operation : Builtin} (hfits : List.Forall₂ Known.Fits ks arguments)
    (htakes : operation.function.takes ks.length = true)
    (htype : operation.function.resultType (ks.map Known.type) = some t) :
    Yields (operation.apply operation.function arguments)
      (Known.Fits { type := t, exact := ks.all Known.exact }) := by
  have hlength := hfits.length_eq
  cases operation with
  | print | println =>
      cases htype
      exact Known.fits_of_type rfl
  | startsWith | contains =>
      have hcount : ks.length = 2 := (eq_of_beq htakes).symm
      obtain ⟨v, w, rfl⟩ := List.length_eq_two.mp (hlength ▸ hcount)
      rw [apply]
      exact fits_stringTest hfits htype _
  | toUpper | trim =>
      have hcount : ks.length = 1 := (eq_of_beq htakes).symm
      obtain ⟨v, rfl⟩ := List.length_eq_one_iff.mp (hlength ▸ hcount)
      exact fits_mapString hfits htype _
  | substr => exact fits_substr hfits htype
  | abs => exact fits_abs hfits htype
  | toString =>
      cases htype
      have hcount : ks.length = 1 := (eq_of_beq htakes).symm
      obtain ⟨v, rfl⟩ := List.length_eq_one_iff.mp (hlength ▸ hcount)
      exact Known.fits_of_type rfl
  | toDate => exact fits_toDate hfits htype
  | toDateTime => exact fits_toDateTime hfits htype
  | toLong =>
      obtain ⟨_, rfl⟩ := eq_of_ofStrings htype
      have hcount : ks.length = 1 := (eq_of_beq htakes).symm
      obtain ⟨v, rfl⟩ := List.length_eq_one_iff.mp (hlength ▸ hcount)
      refine Yields.bind (yields_stringArgument _ v) fun text _ => ?_
      cases Long.ofText (Text.trim text) with
      | ok n => exact Known.fits_of_type rfl
      | error e => exact rfl
  | toDouble =>
      obtain ⟨_, rfl⟩ := eq_of_ofStrings htype
      have hcount : ks.length = 1 := (eq_of_beq htakes).symm
      obtain ⟨v, rfl⟩ := List.length_eq_one_iff.mp (hlength ▸ hcount)
      refine Yields.bind (yields_stringArgument _ v) fun text _ => ?_
      cases Double.ofText (Text.trim text) with
      | ok d => exact Known.fits_of_type rfl
      | error e => exact rfl
  | withinDays =>
      obtain ⟨htypes, rfl⟩ := eq_of_withinDaysType htype
      have hcount : ks.length = 3 := (eq_of_beq htakes).symm
      obtain ⟨first, second, days, rfl⟩ := List.length_eq_three.mp (hlength ▸ hcount)
      exact Yields.imp (yields_areWithin _ _ _) fun _ h => Known.fits_of_type h

end Rules

theorem nodup_parameters {operation : Builtin} {parameters : List String}
    (h : operation.function.parameters = some parameters) : parameters.Nodup := by
  cases operation <;> cases h <;> decide

theorem received_eq {operation : Builtin} {arguments : List Value}
    (htakes : operation.function.takes arguments.length = true) :
    operation.function.received arguments = arguments := by
  unfold Function.received
  split
  · rfl
  · rename_i parameters hparameters
    refine boundArguments_eq (nodup_parameters hparameters) ?_
    unfold Function.takes at htakes
    rw [hparameters] at htakes
    simpa using htakes

theorem answer_eq (operation : Builtin) (host : Host) (arguments : List Value) :
    operation.function.answer host arguments = operation.apply operation.function arguments := by
  cases operation <;> rfl

end Builtin

/-- The functions of the default registry are the built-in ones. -/
theorem Registry.get?_defaults {name : String} {f : Function}
    (h : Registry.defaults.get? name = some f) : ∃ operation : Builtin, f = operation.function := by
  have hadded : ∀ (operations : List Builtin) (r : Registry),
      (∀ key f, r.find? key = some f → ∃ operation : Builtin, f = operation.function) →
      ∀ key f, (operations.foldl (fun r b => r.add b.function) r).find? key = some f →
        ∃ operation : Builtin, f = operation.function := by
    intro operations
    induction operations with
    | nil => exact fun r hr => hr
    | cons b operations ih =>
        intro r hr
        refine ih _ ?_
        intro key f hf
        unfold Registry.add at hf
        rw [Bindings.find?_insert] at hf
        split at hf
        · exact ⟨b, (Option.some.inj hf).symm⟩
        · exact hr key f hf
  exact hadded Builtin.all ∅ (fun _ _ h => nomatch h) _ f h

/-! ### Calls -/

/-- Whether a value is of a type, as far as a type promises anything: it may be `void` all the same,
and of a value of type `void` nothing is promised. -/
def Value.IsOf (v : Value) (t : ValueType) : Prop := t = .void ∨ v.type = .void ∨ v.type = t

theorem Known.fits_inexact {t : ValueType} {v : Value} : Fits { type := t } v ↔ v.IsOf t := by
  unfold Fits Admits Value.IsOf
  simp only [true_and]
  tauto

namespace Function

/-- Given arguments of the types that it announces a type for, a function answers with a value of
that type. -/
def KeepsRule (host : Host) (f : Function) : Prop :=
  ∀ types arguments t v, f.takes types.length = true → f.resultType types = some t →
    List.Forall₂ (fun u a => Value.IsOf a u) types arguments →
      f.answer host (f.received arguments) = .ok v → v.IsOf t

/-- A function that is built in, or keeps its rule and fails for certain reasons only. -/
def IsHonest (host : Host) (reasons : Error → Prop) (f : Function) : Prop :=
  (∃ operation : Builtin, f = operation.function) ∨
    f.KeepsRule host ∧ ∀ arguments e, f.takes arguments.length = true →
      f.answer host (f.received arguments) = .error e → reasons e

theorem meets_invoke_of_isHonest {f : Function} {env : Environment} {reasons : Error → Prop}
    (hf : f.IsHonest env.host reasons) (hreasons : ∀ e, e.isUnresolved = false → reasons e)
    {ks : List Known} {arguments : List Value} {t : ValueType} {exact : Bool}
    (hfits : List.Forall₂ Known.Fits ks arguments) (htakes : f.takes ks.length = true)
    (htype : f.resultType (ks.map Known.type) = some t)
    (hexact : exact = true → (∃ operation : Builtin, f = operation.function) ∧
      ∀ k ∈ ks, k.exact = true) (s : Store) :
    Meets (f.invoke env arguments) s
      (fun v s' => Known.Fits { type := t, exact } v ∧ s'.vars = s.vars)
      fun stop _ => ∃ e, stop = .failed e ∧ reasons e := by
  have htakes' : f.takes arguments.length = true := hfits.length_eq ▸ htakes
  refine (meets_invoke htakes' env s).imp ?_ ?_
  · rintro v s' ⟨hanswer, hvars⟩
    refine ⟨?_, hvars⟩
    by_cases hbuiltin : ∃ operation : Builtin, f = operation.function
    · obtain ⟨operation, rfl⟩ := hbuiltin
      have hyields := Builtin.yields_apply hfits htakes htype
      rw [Builtin.received_eq htakes', Builtin.answer_eq] at hanswer
      rw [hanswer] at hyields
      cases exact with
      | false => exact Known.Fits.inexact hyields
      | true =>
          rw [List.all_eq_true.mpr (hexact rfl).2] at hyields
          exact hyields
    · cases exact with
      | true => exact absurd (hexact rfl).1 hbuiltin
      | false =>
          have hkeeps : f.KeepsRule env.host := (hf.resolve_left hbuiltin).1
          refine Known.fits_inexact.mpr (hkeeps _ arguments t v ?_ htype ?_ hanswer)
          · rw [List.length_map]
            exact htakes
          · rw [List.forall₂_map_left_iff]
            exact hfits.imp fun _ _ h => Known.fits_inexact.mp h.inexact
  · rintro _ _ ⟨e, rfl, hanswer⟩
    refine ⟨e, rfl, ?_⟩
    rcases hf with ⟨operation, rfl⟩ | ⟨_, hfails⟩
    · have hyields := Builtin.yields_apply hfits htakes htype
      rw [Builtin.received_eq htakes', Builtin.answer_eq] at hanswer
      rw [hanswer] at hyields
      exact hreasons e hyields
    · exact hfails arguments e htakes' hanswer

end Function

end FrameLang
