import OmarchyKids.Lib.JsonText

/-!
# OmarchyKids.Lib.JsonRecords

Reading records out of JSON objects, the way a derived reader does: members in any
order, unknown ones skipped, a field that is there twice refused, and a field under any
of its names. An optional field may be missing or `null`.
-/

namespace JsonText

variable {α : Type*}

/-- The member under one of these names: missing, there, or (`none`) there twice. -/
def field (names : List String) (members : List (String × Value)) : Option (Option Value) :=
  match members.filter fun m => m.1 ∈ names with
  | [] => some none
  | [m] => some (some m.2)
  | _ => none

def requiredField (read : Value → Option α) (names : List String)
    (members : List (String × Value)) : Option α :=
  (field names members).bind fun v => v.bind read

/-- `null` stands for an absent value. -/
def readOption (read : Value → Option α) : Value → Option (Option α)
  | .null => some none
  | v => (read v).map some

def optionalField (read : Value → Option α) (names : List String)
    (members : List (String × Value)) : Option (Option α) :=
  (field names members).bind fun
    | none => some none
    | some v => readOption read v

/-! ### Readers of single values -/

def readStr : Value → Option String
  | .str s => some s
  | _ => none

def readBool : Value → Option Bool
  | .bool b => some b
  | _ => none

def readU32 : Value → Option UInt32
  | .num (.ofNat n) 0 => if n < UInt32.size then some (UInt32.ofNat n) else none
  | _ => none

def readI32 : Value → Option Int
  | .num m e => if e = 0 ∧ -2 ^ 31 ≤ m ∧ m < 2 ^ 31 then some m else none
  | _ => none

/-- All items, or nothing. -/
def readItems (read : Value → Option α) : List Value → Option (List α)
  | [] => some []
  | v :: vs => (read v).bind fun a => (readItems read vs).map (a :: ·)

def readList (read : Value → Option α) : Value → Option (List α)
  | .arr vs => readItems read vs
  | _ => none

def readObj (read : List (String × Value) → Option α) : Value → Option α
  | .obj members => read members
  | _ => none

/-! ### What was written is read -/

theorem readU32_num (n : UInt32) : readU32 (.num n.toNat 0) = some n := by
  have hread : readU32 (.num n.toNat 0) =
      if n.toNat < UInt32.size then some (UInt32.ofNat n.toNat) else none := rfl
  rw [hread, if_pos n.toNat_lt, UInt32.ofNat_toNat]

theorem readI32_num {n : Int} (hlo : -2 ^ 31 ≤ n) (hhi : n < 2 ^ 31) :
    readI32 (.num n 0) = some n := by
  rw [readI32, if_pos ⟨rfl, hlo, hhi⟩]

theorem readOption_of_ne {read : Value → Option α} {v : Value} {a : α} (hv : v ≠ .null)
    (hread : read v = some a) : readOption read v = some (some a) := by
  cases v with
  | null => exact absurd rfl hv
  | _ => simp [readOption, hread]

/-- A list of things that are read back is read back. -/
theorem readItems_map {read : Value → Option α} {write : α → Value} {as : List α}
    (h : ∀ a ∈ as, read (write a) = some a) : readItems read (as.map write) = some as := by
  induction as with
  | nil => rfl
  | cons a as ih =>
      obtain ⟨ha, has⟩ := List.forall_mem_cons.mp h
      rw [List.map_cons, readItems, ha, Option.bind_some, ih has, Option.map_some]

end JsonText
