import Mathlib.Data.List.Lemmas

/-!
# JSON values

JSON values as a C++ program holds them: strings are byte strings, a number is a
signed or an unsigned 64-bit integer or a floating point number, and the members
of an object are kept by their keys.  Reading a value as a type is a partial
function; it converts between the kinds of numbers the way C++ does.

The lemmas `lookup_insert_*`, `lookup_insertIf_*` and `lookup_erase_*` read a
member of an object that was built by insertions.  `reparsed` is a value after
it has been written and parsed again, and `Value.find_reparsed` finds its
members where they were.
-/

namespace Json

/-- The bytes of a `std::string` key. -/
abbrev Key := List UInt8

/-- `D` is the type of floating point numbers. -/
inductive Value (D : Type) where
  | null
  | boolean (b : Bool)
  | numberInteger (n : Int64)
  | numberUnsigned (n : UInt64)
  | numberFloat (x : D)
  | string (s : List UInt8)
  | array (elements : List (Value D))
  | object (members : List (Key × Value D))

/-- What reading a value can throw. -/
inductive Exception where
  | typeError
  | outOfRange
deriving DecidableEq

/-- What reading gives: a value, or what was thrown. -/
abbrev Read (α : Type) := Except Exception α

/-- The conversions between floating point numbers and integers. -/
structure Conversions (D : Type) where
  ofInt : Int → D
  toInt32 : D → Int32
  toInt64 : D → Int64

/-! ## Members -/

section Members

variable {β : Type}

/-- `m[key] = v`. -/
def insert (key : Key) (v : β) : List (Key × β) → List (Key × β)
  | [] => [(key, v)]
  | (k, w) :: rest =>
      if k = key then (key, v) :: rest
      else if key < k then (key, v) :: (k, w) :: rest
      else (k, w) :: insert key v rest

/-- `if (o) m[key] = *o`. -/
def insertIf (key : Key) : Option β → List (Key × β) → List (Key × β)
  | none, m => m
  | some v, m => insert key v m

/-- The members but the one of this key. -/
def erase (key : Key) (m : List (Key × β)) : List (Key × β) := m.filter fun e => e.1 ≠ key

variable {key other : Key} {v : β} {m : List (Key × β)}

/-- The new member is found. -/
theorem lookup_insert_self : (insert key v m).lookup key = some v := by
  induction m with
  | nil => simp [insert]
  | cons e rest ih =>
      obtain ⟨k, w⟩ := e
      unfold insert
      split
      · simp
      · split
        · simp
        next hne _ =>
          rw [List.lookup_cons, beq_eq_false_iff_ne.mpr (Ne.symm hne)]
          exact ih

/-- The other members are found as before. -/
theorem lookup_insert_ne (hne : other ≠ key) : (insert key v m).lookup other = m.lookup other := by
  induction m with
  | nil => simp [insert, List.lookup_cons, beq_eq_false_iff_ne.mpr hne]
  | cons e rest ih =>
      obtain ⟨k, w⟩ := e
      unfold insert
      split
      next hkey =>
        subst hkey
        simp [List.lookup_cons, beq_eq_false_iff_ne.mpr hne]
      · split
        · rw [List.lookup_cons, beq_eq_false_iff_ne.mpr hne]
        · rw [List.lookup_cons, List.lookup_cons, ih]

/-- A member that may be missing is found when it is there. -/
theorem lookup_insertIf_self (o : Option β) (hnew : m.lookup key = none) :
    (insertIf key o m).lookup key = o := by
  cases o with
  | none => exact hnew
  | some v => exact lookup_insert_self

/-- The other members are found as before. -/
theorem lookup_insertIf_ne (hne : other ≠ key) (o : Option β) :
    (insertIf key o m).lookup other = m.lookup other := by
  cases o with
  | none => rfl
  | some v => exact lookup_insert_ne hne

/-- Without a key the other members are found as before. -/
theorem lookup_erase_ne (hne : other ≠ key) : (erase key m).lookup other = m.lookup other := by
  induction m with
  | nil => rfl
  | cons e rest ih =>
      obtain ⟨k, w⟩ := e
      unfold erase at ih ⊢
      rw [List.filter_cons]
      by_cases hkey : k = key
      · rw [if_neg (by simpa using hkey), ih, List.lookup_cons,
          beq_eq_false_iff_ne.mpr (hkey ▸ hne)]
      · rw [if_pos (by simpa using hkey), List.lookup_cons, List.lookup_cons, ih]

/-- The key itself is not found. -/
theorem lookup_erase_self : (erase key m).lookup key = none := by
  induction m with
  | nil => rfl
  | cons e rest ih =>
      obtain ⟨k, w⟩ := e
      unfold erase at ih ⊢
      rw [List.filter_cons]
      by_cases hkey : k = key
      · rw [if_neg (by simpa using hkey), ih]
      · rw [if_pos (by simpa using hkey), List.lookup_cons,
          beq_eq_false_iff_ne.mpr (Ne.symm hkey), ih]

end Members

/-! ## Reading -/

namespace Value

variable {D α : Type}

/-- The member of a key, if the value is an object that has one. -/
def find (j : Value D) (key : Key) : Option (Value D) :=
  match j with
  | .object m => m.lookup key
  | _ => none

/-- The value without the member of a key. -/
def without (key : Key) : Value D → Value D
  | .object m => .object (erase key m)
  | j => j

/-- `j.at(key)`. -/
def at_ (j : Value D) (key : Key) : Read (Value D) :=
  match j with
  | .object m =>
      match m.lookup key with
      | some v => .ok v
      | none => .error .outOfRange
  | _ => .error .typeError

/-- `j.value(key, default)`. -/
def valueOr (get : Value D → Read α) (j : Value D) (key : Key) (default : α) : Read α :=
  match j with
  | .object m =>
      match m.lookup key with
      | some v => get v
      | none => .ok default
  | _ => .error .typeError

/-- `if (j.contains(key)) o = get(j[key])`. -/
def getIf (get : Value D → Read α) (j : Value D) (key : Key) : Read (Option α) :=
  match j.find key with
  | some v => (get v).map some
  | none => .ok none

/-- What a loop over a value goes through. -/
def items : Value D → List (Value D)
  | .null => []
  | .array elements => elements
  | .object m => m.map Prod.snd
  | j => [j]

/-- `j.get<std::string>()`. -/
def getString : Value D → Read (List UInt8)
  | .string s => .ok s
  | _ => .error .typeError

/-- `j.get<bool>()`. -/
def getBoolean : Value D → Read Bool
  | .boolean b => .ok b
  | _ => .error .typeError

/-- A conversion to `int32_t`, which takes truth values too. -/
def getInt32 (c : Conversions D) : Value D → Read Int32
  | .numberInteger n => .ok (Int32.ofInt n.toInt)
  | .numberUnsigned n => .ok (Int32.ofInt n.toNat)
  | .numberFloat x => .ok (c.toInt32 x)
  | .boolean b => .ok (if b then 1 else 0)
  | _ => .error .typeError

/-- `j.get<int64_t>()`, which converts every kind of number. -/
def getInt64 (c : Conversions D) : Value D → Read Int64
  | .numberInteger n => .ok n
  | .numberUnsigned n => .ok (Int64.ofInt n.toNat)
  | .numberFloat x => .ok (c.toInt64 x)
  | _ => .error .typeError

/-- `j.get<double>()`, which converts every kind of number. -/
def getDouble (c : Conversions D) : Value D → Read D
  | .numberInteger n => .ok (c.ofInt n.toInt)
  | .numberUnsigned n => .ok (c.ofInt n.toNat)
  | .numberFloat x => .ok x
  | _ => .error .typeError

/-- A vector of what the elements of an array are read as. -/
def getVector (get : Value D → Read α) : Value D → Read (List α)
  | .array elements => elements.mapM get
  | _ => .error .typeError

/-- `j.is_string()`. -/
def isString : Value D → Bool
  | .string _ => true
  | _ => false

/-- `j.is_array()`. -/
def isArray : Value D → Bool
  | .array _ => true
  | _ => false

section Without

variable {D α : Type} {key other : Key}

/-- Without a key the other members are found as before. -/
theorem find_without_ne (j : Value D) (hne : other ≠ key) :
    (j.without key).find other = j.find other := by
  cases j with
  | object m => exact lookup_erase_ne hne
  | _ => rfl

/-- The key itself is not found. -/
theorem find_without_self (j : Value D) : (j.without key).find key = none := by
  cases j with
  | object m => exact lookup_erase_self
  | _ => rfl

/-- Nor does `at` notice. -/
theorem at_without_ne (j : Value D) (hne : other ≠ key) :
    (j.without key).at_ other = j.at_ other := by
  cases j with
  | object m =>
      unfold without at_
      dsimp only
      rw [lookup_erase_ne hne]
  | _ => rfl

/-- Nor does `value`. -/
theorem valueOr_without_ne (get : Value D → Read α) (j : Value D) (hne : other ≠ key)
    (default : α) : (j.without key).valueOr get other default = j.valueOr get other default := by
  cases j with
  | object m =>
      unfold without valueOr
      dsimp only
      rw [lookup_erase_ne hne]
  | _ => rfl

/-- Nor does a read that may be missing. -/
theorem getIf_without_ne (get : Value D → Read α) (j : Value D) (hne : other ≠ key) :
    (j.without key).getIf get other = j.getIf get other := by
  unfold getIf
  rw [find_without_ne j hne]

/-- Of the key itself it reads nothing. -/
theorem getIf_without_self (get : Value D → Read α) (j : Value D) :
    (j.without key).getIf get key = .ok none := by
  unfold getIf
  rw [find_without_self]

end Without

end Value

/-! ## Printed and parsed -/

section Reparsed

variable {D : Type}

mutual

/-- What parsing gives of a value that was printed: an integer that is not
negative comes back unsigned. -/
def Value.reparsed : Value D → Value D
  | .null => .null
  | .boolean b => .boolean b
  | .numberInteger n => if n < 0 then .numberInteger n else .numberUnsigned n.toUInt64
  | .numberUnsigned n => .numberUnsigned n
  | .numberFloat x => .numberFloat x
  | .string s => .string s
  | .array elements => .array (reparsedElements elements)
  | .object members => .object (reparsedMembers members)

/-- The elements of an array after printing and parsing. -/
def reparsedElements : List (Value D) → List (Value D)
  | [] => []
  | j :: rest => j.reparsed :: reparsedElements rest

/-- The members of an object after printing and parsing. -/
def reparsedMembers : List (Key × Value D) → List (Key × Value D)
  | [] => []
  | (key, j) :: rest => (key, j.reparsed) :: reparsedMembers rest

end

/-- Elements are printed and parsed one by one. -/
theorem reparsedElements_eq (elements : List (Value D)) :
    reparsedElements elements = elements.map Value.reparsed := by
  induction elements with
  | nil => rfl
  | cons j rest ih => rw [reparsedElements, ih, List.map_cons]

/-- A member is found as it comes back. -/
theorem lookup_reparsedMembers (key : Key) (members : List (Key × Value D)) :
    (reparsedMembers members).lookup key = (members.lookup key).map Value.reparsed := by
  induction members with
  | nil => rfl
  | cons e rest ih =>
      obtain ⟨k, j⟩ := e
      rw [reparsedMembers, List.lookup_cons, List.lookup_cons]
      split
      · rfl
      · exact ih

/-- The same for a value. -/
theorem Value.find_reparsed (j : Value D) (key : Key) :
    j.reparsed.find key = (j.find key).map Value.reparsed := by
  cases j with
  | object members =>
      rw [Value.reparsed]
      exact lookup_reparsedMembers key members
  | numberInteger n =>
      rw [Value.reparsed]
      split <;> rfl
  | _ => rfl

end Reparsed

/-- Reading back what was written, element by element. -/
theorem mapM_map {α β : Type} {get : β → Read α} {put : α → β} (l : List α)
    (h : ∀ a ∈ l, get (put a) = .ok a) : (l.map put).mapM get = .ok l := by
  induction l with
  | nil => rfl
  | cons a rest ih =>
      rw [List.map_cons, List.mapM_cons, h a List.mem_cons_self,
        ih fun b hb => h b (List.mem_cons_of_mem _ hb)]
      rfl

end Json
