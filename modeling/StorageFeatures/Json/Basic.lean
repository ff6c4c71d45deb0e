import StorageFeatures.Decimal.Shortest
import StorageFeatures.NameMap

/-!
# JSON values

`Json` is a JSON document as it was read: the members of an object stand in the order of the
text, a name may occur twice. `Json.lookup` is what a reader of an object asks: of two members
with one name the later one counts. `Json.canonical` sorts members and drops the overruled ones,
and `lookup_canonicalMembers` says that no look-up can tell the difference.
-/

namespace StorageFeatures

/-- A JSON number is an integer of at most 64 bits, or a floating-point number. -/
inductive Json.Number where
  | integer (value : Int)
  | real (value : Binary64)
  deriving DecidableEq, Repr

inductive Json where
  | null
  | bool (value : Bool)
  | number (value : Json.Number)
  | string (value : String)
  | array (items : List Json)
  | object (members : List (String × Json))
  deriving Repr, Inhabited

namespace Json

/-- An integer. -/
def int (n : Int) : Json := .number (.integer n)

/-- A natural number. -/
def nat (n : Nat) : Json := .int n

/-- A value or null. -/
def ofOption (f : α → Json) : Option α → Json
  | some a => f a
  | none => .null

/-- A member that is left out when there is no value. -/
def member? (k : String) (f : α → Json) : Option α → List (String × Json)
  | some a => [(k, f a)]
  | none => []

/-- A list of texts. -/
def strings (l : List String) : Json := .array (l.map .string)

/-- An object with texts as values. -/
def ofNames (m : NameMap String) : Json := .object (m.entries.map fun (k, v) => (k, .string v))

/-- The value under a name; of two the later one. -/
def lookup (k : String) : List (String × Json) → Option Json
  | [] => none
  | (k', v) :: r => (lookup k r).or (if k = k' then some v else none)

/-- The value of a member of an object. -/
def get? (k : String) : Json → Option Json
  | .object ms => lookup k ms
  | _ => none

/-- The members sorted by name, of two with one name the later one. -/
def canonicalMembers (ms : List (String × Json)) : List (String × Json) :=
  (NameMap.ofList ms).entries

mutual

/-- The value with the members of every object sorted by name and none repeated. -/
def canonical : Json → Json
  | .array items => .array (canonicalItems items)
  | .object ms => .object (canonicalMembers (canonicalValues ms))
  | j => j

def canonicalItems : List Json → List Json
  | [] => []
  | j :: r => canonical j :: canonicalItems r

def canonicalValues : List (String × Json) → List (String × Json)
  | [] => []
  | (k, j) :: r => (k, canonical j) :: canonicalValues r

end

/-! ### Look-ups -/

@[simp] theorem lookup_nil (k : String) : lookup k [] = none := rfl

/-- Of two members with one name the later counts. -/
theorem lookup_append (k : String) (l₁ l₂ : List (String × Json)) :
    lookup k (l₁ ++ l₂) = (lookup k l₂).or (lookup k l₁) := by
  induction l₁ with
  | nil => simp
  | cons a r ih => simp [lookup, ih, Option.or_assoc]

private theorem get?_foldl_insert (l : List (String × Json)) (m : NameMap Json) (k : String) :
    (l.foldl (fun m a => m.insert a.1 a.2) m).get? k = (lookup k l).or (m.get? k) := by
  induction l generalizing m with
  | nil => simp
  | cons a r ih =>
    rw [List.foldl_cons, ih, NameMap.get?_insert, lookup, Option.or_assoc]
    by_cases h : k = a.1 <;> simp [h]

/-- A map made from members answers as the members do. -/
theorem get?_ofList (ms : List (String × Json)) (k : String) :
    (NameMap.ofList ms).get? k = lookup k ms := by
  simp [NameMap.ofList, get?_foldl_insert]

/-- Where names ascend there is one look-up to make. -/
theorem lookup_eq_find {l : List (String × Json)} (h : l.Pairwise fun a b => a.1 < b.1)
    (k : String) : lookup k l = NameMap.find k l := by
  induction l with
  | nil => rfl
  | cons a r ih =>
    rw [List.pairwise_cons] at h
    by_cases hk : k = a.1
    · have hr : NameMap.find k r = none := NameMap.find_eq_none_of_lt (hk ▸ h.1)
      rw [lookup, NameMap.find, ih h.2, hr]
      simp [hk]
    · simp [lookup, NameMap.find, ih h.2, hk]

/-- Sorting members changes no look-up. -/
theorem lookup_canonicalMembers (k : String) (ms : List (String × Json)) :
    lookup k (canonicalMembers ms) = lookup k ms := by
  rw [canonicalMembers, lookup_eq_find (NameMap.ascending _), ← get?_ofList, NameMap.get?]

end Json

end StorageFeatures
