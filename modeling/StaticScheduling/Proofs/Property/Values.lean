import StaticScheduling.Property.Builtin

/-! # The values in properties

A built-in kind reads one value from a property and writes it back as the same
property.  What a list of properties says about a kind is the value in the last
property that has one.
-/

namespace StaticScheduling

/-! ## Numbers -/

/-- A 32-bit number is far from the bounds of a 64-bit one. -/
theorem toInt_ofInt_toNat (number : UInt32) : (Int64.ofInt number.toNat).toInt = number.toNat := by
  have bound : number.toNat < 4294967296 := number.toNat_lt
  exact Int64.toInt_ofInt_of_le (by omega) (by omega)

theorem word32?_toNat (number : UInt32) : word32? (Int64.ofInt number.toNat) = some number := by
  have bound : number.toNat < 4294967296 := number.toNat_lt
  have fits : (0 : Int) ≤ number.toNat ∧ (number.toNat : Int) < UInt32.size := by
    simp only [UInt32.size]
    omega
  rw [word32?, toInt_ofInt_toNat, if_pos fits, Int.toNat_natCast, UInt32.ofNat_toNat]

theorem ofInt_of_word32? {number : Int64} {word : UInt32} (fits : word32? number = some word) :
    Int64.ofInt word.toNat = number := by
  unfold word32? at fits
  split at fits
  · rename_i range
    obtain ⟨nonnegative, below⟩ := range
    cases fits
    have small : number.toInt.toNat < UInt32.size := by omega
    have same : (UInt32.ofNat number.toInt.toNat).toNat = number.toInt.toNat :=
      UInt32.toNat_ofNat_of_lt small
    rw [same, Int.toNat_of_nonneg nonnegative, Int64.ofInt_toInt]
  · cases fits

namespace Property

variable {property : Property} {mnemonic other : String}

theorem parameters_of_single? {parameter : Parameter} (only : property.single? = some parameter) :
    property.parameters = [parameter] := by
  unfold single? at only
  split at only
  · cases only
    assumption
  · cases only

theorem number?_ofNumber (mnemonic : String) (number : UInt32) :
    (ofNumber mnemonic number).number? mnemonic = some number := by
  simp [ofNumber, number?, isNamed, single?, Parameter.integer?, word32?_toNat]

/-- A property that holds a number is the one written for this number. -/
theorem ofNumber_of_number? {number : UInt32} (found : property.number? mnemonic = some number) :
    ofNumber mnemonic number = property := by
  obtain ⟨dialect, name, parameters⟩ := property
  unfold number? at found
  split at found
  · rename_i named
    simp only [isNamed, Bool.and_eq_true, decide_eq_true_eq] at named
    -- the name and the only parameter of the property are determined by the number
    obtain ⟨rfl, rfl⟩ := named
    obtain ⟨value, single, fits⟩ := Option.bind_eq_some_iff.mp found
    obtain ⟨parameter, only, integer⟩ := Option.bind_eq_some_iff.mp single
    cases parameters_of_single? only
    cases parameter with
    | integer _ =>
      cases integer
      rw [ofNumber, ofInt_of_word32? fits]
    | _ => cases integer
  · cases found

/-- The only parameter of an accepted property is the number that is taken from it, to the last
bit. -/
theorem exists_ofNumber_of_single? {number : Int64} (accepted : (property.number? mnemonic).isSome)
    (only : property.single? = some (.integer number)) :
    ∃ word : UInt32, (word.toNat : Int) = number.toInt ∧
      property = ofNumber property.mnemonic word := by
  obtain ⟨word, found⟩ := Option.isSome_iff_exists.mp accepted
  have written : ofNumber mnemonic word = property := ofNumber_of_number? found
  subst written
  cases only
  exact ⟨word, (toInt_ofInt_toNat word).symm, rfl⟩

theorem number?_of_ne (different : mnemonic ≠ other) (number : UInt32) :
    (ofNumber mnemonic number).number? other = none := by
  simp [ofNumber, number?, isNamed, different]

/-! ## Links -/

/-- The property `#ssp.link<@name>`. -/
def ofLink (operatorType : OperatorType) : Property :=
  ⟨schedulingDialect, "link", [.symbol operatorType.name]⟩

/-- The operator type in a link. -/
def link? (property : Property) : Option OperatorType := property.linkTarget?.map OperatorType.mk

theorem link?_ofLink (operatorType : OperatorType) :
    (ofLink operatorType).link? = some operatorType := by
  simp [ofLink, link?, linkTarget?, isLink, isNamed, single?, Parameter.symbol?]

/-- A link to an operator type is the one written for this operator type. -/
theorem ofLink_of_link? {operatorType : OperatorType} (found : property.link? = some operatorType) :
    ofLink operatorType = property := by
  obtain ⟨dialect, name, parameters⟩ := property
  obtain ⟨target, linked, same⟩ := Option.map_eq_some_iff.mp found
  subst same
  simp only [linkTarget?] at linked
  split at linked
  · rename_i named
    simp only [isLink, isNamed, Bool.and_eq_true, decide_eq_true_eq] at named
    obtain ⟨rfl, rfl⟩ := named
    obtain ⟨parameter, only, symbol⟩ := Option.bind_eq_some_iff.mp linked
    cases parameters_of_single? only
    cases parameter with
    | symbol _ =>
      cases symbol
      rfl
    | _ => cases symbol
  · cases linked

theorem link?_ofNumber (different : mnemonic ≠ "link") (number : UInt32) :
    (ofNumber mnemonic number).link? = none := by
  simp [ofNumber, link?, linkTarget?, isLink, isNamed, different]

theorem number?_ofLink (different : mnemonic ≠ "link") (operatorType : OperatorType) :
    (ofLink operatorType).number? mnemonic = none := by
  simp [ofLink, number?, isNamed, Ne.symm different]

/-! ## The last value -/

section Last

variable {Value : Type} {read : Property → Option Value}

/-- The value in the last property that has one. -/
def last? (read : Property → Option Value) (properties : List Property) : Option Value :=
  (properties.filterMap read).getLast?

@[simp] theorem last?_nil : last? read [] = none := rfl

theorem last?_append (first second : List Property) :
    last? read (first ++ second) = (last? read second).or (last? read first) := by
  rw [last?, List.filterMap_append, List.getLast?_append]
  rfl

theorem last?_cons (property : Property) (rest : List Property) :
    last? read (property :: rest) = (last? read rest).or (read property) := by
  have single : last? read [property] = read property := by
    cases value : read property <;> simp [last?, value]
  rw [← single]
  exact last?_append [property] rest

theorem last?_eq_none {properties : List Property}
    (absent : ∀ property ∈ properties, read property = none) : last? read properties = none := by
  rw [last?, List.filterMap_eq_nil_iff.mpr absent]
  rfl

/-- A value is read from one of the properties. -/
theorem exists_of_last? {properties : List Property} {value : Value}
    (found : last? read properties = some value) :
    ∃ property ∈ properties, read property = some value :=
  List.mem_filterMap.mp (List.mem_of_getLast? found)

/-- Where a value is written the way it is read, the last value is in the last property that has
one. -/
theorem map_last? {write : Value → Property} {accepts : Property → Bool}
    (reads : ∀ property, accepts property = (read property).isSome)
    (writes : ∀ property value, read property = some value → write value = property)
    (properties : List Property) :
    (last? read properties).map write = (properties.filter accepts).getLast? := by
  rw [last?, ← List.getLast?_map]
  congr 1
  -- the properties that are read and those that are accepted are the same
  induction properties with
  | nil => rfl
  | cons property properties inductionHypothesis =>
    cases found : read property with
    | none =>
      have refused : accepts property = false := by rw [reads, found, Option.isSome_none]
      simp only [List.filterMap_cons, found, List.filter_cons, refused, Bool.false_eq_true,
        if_false, inductionHypothesis]
    | some value =>
      have accepted : accepts property = true := by rw [reads, found, Option.isSome_some]
      simp only [List.filterMap_cons, found, List.map_cons, List.filter_cons, accepted, if_true,
        inductionHypothesis, writes property value found]

end Last

end Property

end StaticScheduling
