import Mathlib

/-!
# OmarchyKids.Lib.Argv

Argument vectors of a Unix program: what `exec` keeps of each string, and how a
program reads its own arguments in the classic `getopt` manner — options first,
some of them followed by a value in the next argument, and everything from the
first other argument on an operand.

`read_flat_iff` says when a caller that puts options with values before an
operand is understood as meant: exactly when that operand does not look like an
option.
-/

namespace Argv

/-! ### C strings -/

/-- What is left of a string that is handed on as a C string: everything before
its first NUL. -/
def cString (s : String) : String := String.ofList (s.toList.takeWhile (· != '\x00'))

/-- No NUL in the string. -/
def NulFree (s : String) : Prop := '\x00' ∉ s.toList

instance (s : String) : Decidable (NulFree s) := inferInstanceAs (Decidable (_ ∉ _))

theorem cString_eq_self_iff (s : String) : cString s = s ↔ NulFree s := by
  have h : cString s = s ↔ s.toList.takeWhile (· != '\x00') = s.toList := by
    rw [cString, ← String.toList_inj, String.toList_ofList]
  rw [h, List.takeWhile_eq_self_iff, NulFree]
  constructor
  · intro hall hmem
    simpa using hall _ hmem
  · intro hfree c hc
    simpa using fun heq : c = '\x00' => hfree (heq ▸ hc)

theorem NulFree.cString {s : String} (h : NulFree s) : cString s = s :=
  (cString_eq_self_iff s).mpr h

theorem map_cString_eq_self_iff (args : List String) :
    args.map cString = args ↔ ∀ arg ∈ args, NulFree arg := by
  have hmap : args.map cString = args ↔ ∀ arg ∈ args, cString arg = arg := by
    simpa using List.map_inj_left (l := args) (f := cString) (g := id)
  rw [hmap]
  exact forall₂_congr fun arg _ => cString_eq_self_iff arg

/-- Only what is cut at a NUL gets shorter. -/
theorem length_cString_le (s : String) : (cString s).toList.length ≤ s.toList.length := by
  rw [cString, String.toList_ofList]
  exact (List.takeWhile_sublist _).length_le

theorem nulFree_of_length {s : String} (h : (cString s).toList.length = s.toList.length) :
    NulFree s := by
  rw [cString, String.toList_ofList] at h
  rw [← cString_eq_self_iff, cString, (List.takeWhile_prefix _).eq_of_length h,
    String.ofList_toList]

theorem nulFree_append (s t : String) : NulFree (s ++ t) ↔ NulFree s ∧ NulFree t := by
  simp [NulFree]

/-! ### Options and operands -/

/-- An argument that begins with a dash is taken for an option. -/
def isOption (arg : String) : Bool := arg.toList.head? == some '-'

/-- Truncation at a NUL keeps the first character, unless that is the NUL. -/
@[simp] theorem isOption_cString (s : String) : isOption (cString s) = isOption s := by
  rw [isOption, isOption, cString, String.toList_ofList]
  cases s.toList with
  | nil => rfl
  | cons c cs =>
      by_cases hc : c = '\x00'
      · subst hc
        rfl
      · simp [hc]

theorem isOption_append {s t : String} (ht : isOption t = false) :
    isOption (s ++ t) = isOption s := by
  rw [isOption, String.toList_append, isOption]
  cases hs : s.toList with
  | nil => simpa [isOption] using ht
  | cons c cs => rfl

/-- What a program makes of its arguments. -/
structure Reading where
  options : List (String × Option String)
  operands : List String
  deriving DecidableEq, Repr

def Reading.withOption (o : String × Option String) (r : Reading) : Reading :=
  { r with options := o :: r.options }

/-- Reads arguments from the left. `takesValue` says which options have their
value in the following argument. -/
def read (takesValue : String → Bool) : List String → Reading
  | [] => ⟨[], []⟩
  | [arg] => if isOption arg then ⟨[(arg, none)], []⟩ else ⟨[], [arg]⟩
  | arg :: value :: rest =>
      if isOption arg then
        if takesValue arg then (read takesValue rest).withOption (arg, some value)
        else (read takesValue (value :: rest)).withOption (arg, none)
      else ⟨[], arg :: value :: rest⟩

variable {takesValue : String → Bool}

/-- The first operand ends the options. -/
theorem read_operand {arg : String} (h : isOption arg = false) (rest : List String) :
    read takesValue (arg :: rest) = ⟨[], arg :: rest⟩ := by
  cases rest <;> simp [read, h]

/-- An argument that looks like an option is read as one. -/
theorem options_read_ne_nil {arg : String} (h : isOption arg = true) (rest : List String) :
    (read takesValue (arg :: rest)).options ≠ [] := by
  cases rest with
  | nil => simp [read, h]
  | cons value rest =>
      simp only [read, h, if_true]
      split <;> simp [Reading.withOption]

/-- Options with their values, as they stand in an argument vector. -/
def flat (opts : List (String × String)) : List String := opts.flatMap fun o => [o.1, o.2]

/-- The same options as the program should see them. -/
def valued (opts : List (String × String)) : List (String × Option String) :=
  opts.map fun o => (o.1, some o.2)

theorem valued_injective {opts opts' : List (String × String)} (h : valued opts = valued opts') :
    opts = opts' := by
  refine (List.map_inj_right ?_).mp h
  intro a b hab
  simpa [Prod.ext_iff] using hab

theorem read_flat {opts : List (String × String)}
    (hopts : ∀ o ∈ opts, isOption o.1 = true ∧ takesValue o.1 = true) (rest : List String) :
    read takesValue (flat opts ++ rest) =
      ⟨valued opts ++ (read takesValue rest).options, (read takesValue rest).operands⟩ := by
  induction opts with
  | nil => rfl
  | cons o opts ih =>
      obtain ⟨hdash, hvalue⟩ := hopts o List.mem_cons_self
      have ih := ih fun p hp => hopts p (List.mem_cons_of_mem _ hp)
      show read takesValue (o.1 :: o.2 :: (flat opts ++ rest)) = _
      simp only [read, hdash, hvalue, if_true, ih]
      rfl

/-- A vector of options with values, one further argument and the rest is read
as the options `opts'` and the operands `operands` exactly when they agree and
the further argument is no option. -/
theorem read_flat_iff {opts opts' : List (String × String)} (hlen : opts.length = opts'.length)
    (hopts : ∀ o ∈ opts, isOption o.1 = true ∧ takesValue o.1 = true)
    (arg : String) (rest operands : List String) :
    read takesValue (flat opts ++ arg :: rest) = ⟨valued opts', operands⟩ ↔
      opts = opts' ∧ isOption arg = false ∧ operands = arg :: rest := by
  rw [read_flat hopts]
  constructor
  · intro h
    obtain ⟨hoptions, hoperands⟩ := Reading.mk.injEq .. ▸ h
    have hlen' : (valued opts).length = (valued opts').length := by simpa [valued] using hlen
    -- the lengths agree, so `arg` contributes no option
    have hnil : (read takesValue (arg :: rest)).options = [] := by
      have := congrArg List.length hoptions
      rw [List.length_append] at this
      exact List.eq_nil_of_length_eq_zero (by omega)
    have harg : isOption arg = false := by
      by_contra hdash
      exact options_read_ne_nil (Bool.not_eq_false _ ▸ hdash) rest hnil
    rw [hnil, List.append_nil] at hoptions
    rw [read_operand harg] at hoperands
    exact ⟨valued_injective hoptions, harg, hoperands.symm⟩
  · intro h
    obtain ⟨rfl, harg, rfl⟩ := h
    rw [read_operand harg, List.append_nil]

end Argv
