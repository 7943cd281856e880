import OmarchyKids.Lib.JsonText

/-!
# OmarchyKids.Lib.JsonCut

A JSON text that has been cut short.

Strings, lists and objects say where they end, so what the decoder makes of them it makes of
every longer text that begins alike (`Ends`). A number does not, but something has to be
behind it before a list or an object goes on (`GoesOn`). Hence no beginning of the text of a
list is a JSON text, unless white space is all that is missing (`blank_of_decode`).
-/

namespace JsonText

variable {α β : Type}

/-- What the first reader makes of a text, the second makes of any longer one. -/
def Ends (f g : List Char → Option (α × List Char)) : Prop :=
  ∀ cs a rest, f cs = some (a, rest) → ∀ more, g (cs ++ more) = some (a, rest ++ more)

/-- The same, if the first has left something. -/
def GoesOn (f g : List Char → Option (α × List Char)) : Prop :=
  ∀ cs a rest, f cs = some (a, rest) → rest ≠ [] → ∀ more, g (cs ++ more) = some (a, rest ++ more)

theorem Ends.goesOn {f g : List Char → Option (α × List Char)} (h : Ends f g) : GoesOn f g :=
  fun cs a rest hread _ more => h cs a rest hread more

theorem Ends.map {f g : List Char → Option (α × List Char)} (h : Ends f g) (k : α → β) :
    Ends (fun cs => (f cs).map fun read => (k read.1, read.2))
      (fun cs => (g cs).map fun read => (k read.1, read.2)) := by
  intro cs b rest hread more
  obtain ⟨⟨a, rest⟩, hf, heq⟩ := Option.map_eq_some_iff.mp hread
  obtain ⟨rfl, rfl⟩ := Prod.mk.inj heq
  dsimp only
  rw [h cs a rest hf more, Option.map_some]

/-! ### White space and words -/

theorem skip_append {cs : List Char} (h : skip cs ≠ []) (more : List Char) :
    skip (cs ++ more) = skip cs ++ more := by
  unfold skip at h ⊢
  rw [List.dropWhile_append, if_neg (by simpa using h)]

theorem ends_keyword (word : List Char) (v : Value) : Ends (keyword word v) (keyword word v) := by
  intro cs w rest hread more
  obtain ⟨tail, htail, heq⟩ := Option.map_eq_some_iff.mp hread
  obtain ⟨rfl, rfl⟩ := Prod.mk.inj heq
  rw [Text.dropLeading_eq_some_iff.mp htail, List.append_assoc]
  exact keyword_append word v _

/-! ### String literals -/

theorem ends_lowUnit (high : Nat) : Ends (lowUnit high) (lowUnit high) := by
  intro cs c rest hread more
  unfold lowUnit at hread
  split at hread
  · split at hread
    next hback =>
      split at hread
      · cases hread
      next hhex =>
        split at hread
        next hlow =>
          obtain ⟨rfl, rfl⟩ := Prod.mk.inj (Option.some.inj hread)
          simp [lowUnit, hback, hhex, hlow]
        next => cases hread
    next => cases hread
  · cases hread

theorem ends_unit : Ends unit unit := by
  intro cs c rest hread more
  unfold unit at hread
  split at hread
  · split at hread
    · cases hread
    next n hhex =>
      split at hread
      next hhigh => simp [unit, hhex, hhigh, ends_lowUnit n _ c rest hread more]
      next hhigh =>
        split at hread
        · cases hread
        next hlow =>
          obtain ⟨rfl, rfl⟩ := Prod.mk.inj (Option.some.inj hread)
          simp [unit, hhex, hhigh, hlow]
  · cases hread

theorem ends_escape : Ends escape escape := by
  intro cs c rest hread more
  cases cs with
  | nil => cases hread
  | cons x xs =>
      rw [escape] at hread
      rw [List.cons_append, escape]
      split at hread
      next hu => rw [if_pos hu, ends_unit xs c rest hread more]
      next hu =>
        obtain ⟨d, hd, heq⟩ := Option.map_eq_some_iff.mp hread
        obtain ⟨rfl, rfl⟩ := Prod.mk.inj heq
        rw [if_neg hu, hd, Option.map_some]

theorem ends_stringBody {fuel fuel' : Nat} (hfuel : fuel ≤ fuel') :
    Ends (stringBody fuel) (stringBody fuel') := by
  induction fuel generalizing fuel' with
  | zero =>
      intro cs text rest hread
      cases hread
  | succ fuel ih =>
      obtain ⟨fuel', rfl⟩ := Nat.exists_eq_add_one_of_ne_zero (Nat.ne_zero_of_lt hfuel)
      have hrest := ih (Nat.le_of_succ_le_succ hfuel)
      intro cs text rest hread more
      cases cs with
      | nil => cases hread
      | cons x xs =>
          rw [stringBody] at hread
          rw [List.cons_append, stringBody]
          split at hread
          next hquote =>
            obtain ⟨rfl, rfl⟩ := Prod.mk.inj (Option.some.inj hread)
            rw [if_pos hquote]
          next hquote =>
            rw [if_neg hquote]
            split at hread
            next hback =>
              rw [if_pos hback]
              split at hread
              · cases hread
              next c tail hescape =>
                obtain ⟨⟨text', rest'⟩, htail, heq⟩ := Option.map_eq_some_iff.mp hread
                obtain ⟨rfl, rfl⟩ := Prod.mk.inj heq
                rw [ends_escape xs c tail hescape more]
                dsimp only
                rw [hrest tail text' rest' htail more]
                rfl
            next hback =>
              rw [if_neg hback]
              split at hread
              · cases hread
              next hcontrol =>
                obtain ⟨⟨text', rest'⟩, htail, heq⟩ := Option.map_eq_some_iff.mp hread
                obtain ⟨rfl, rfl⟩ := Prod.mk.inj heq
                rw [if_neg hcontrol, hrest xs text' rest' htail more]
                rfl

/-! ### Numbers -/

theorem digits_more {cs : List Char} (h : (digits cs).2 ≠ []) (more : List Char) :
    digits (cs ++ more) = ((digits cs).1, (digits cs).2 ++ more) := by
  unfold digits at h ⊢
  dsimp only at h ⊢
  have htake : (cs ++ more).takeWhile Char.isDigit = cs.takeWhile Char.isDigit := by
    have hlength : (cs.takeWhile Char.isDigit).length ≠ cs.length := by
      intro heq
      have hall := List.takeWhile_append_dropWhile (p := Char.isDigit) (l := cs)
      rw [← hall, List.length_append] at heq
      have hpos := List.length_pos_iff.mpr h
      simp only [List.takeWhile_append_dropWhile] at heq
      omega
    rw [List.takeWhile_append, if_neg hlength]
  rw [htake, List.dropWhile_append, if_neg (by simpa using h)]

theorem goesOn_fraction : GoesOn fraction fraction := by
  intro cs ds rest hread hrest more
  cases cs with
  | nil =>
      obtain ⟨-, rfl⟩ := Prod.mk.inj (Option.some.inj hread)
      exact absurd rfl hrest
  | cons c cs =>
      rw [fraction] at hread
      rw [List.cons_append, fraction]
      split at hread
      next hpoint =>
        split at hread
        · cases hread
        next hdigits =>
          obtain ⟨rfl, rfl⟩ := Prod.mk.inj (Option.some.inj hread)
          rw [if_pos hpoint, digits_more hrest, if_neg hdigits]
          rfl
      next hpoint =>
        obtain ⟨rfl, rfl⟩ := Prod.mk.inj (Option.some.inj hread)
        rw [if_neg hpoint, List.cons_append]

theorem goesOn_exponentDigits (sign : Int) : GoesOn (exponentDigits sign) (exponentDigits sign) := by
  intro cs e rest hread hrest more
  unfold exponentDigits at hread
  split at hread
  · cases hread
  next hdigits =>
    obtain ⟨rfl, rfl⟩ := Prod.mk.inj (Option.some.inj hread)
    rw [exponentDigits, digits_more hrest, if_neg hdigits]

theorem goesOn_signedExponent : GoesOn signedExponent signedExponent := by
  intro cs e rest hread hrest more
  cases cs with
  | nil => cases hread
  | cons c cs =>
      rw [signedExponent] at hread
      rw [List.cons_append, signedExponent]
      split at hread
      next hplus => rw [if_pos hplus, goesOn_exponentDigits 1 cs e rest hread hrest more]
      next hplus =>
        rw [if_neg hplus]
        split at hread
        next hminus => rw [if_pos hminus, goesOn_exponentDigits (-1) cs e rest hread hrest more]
        next hminus =>
          rw [if_neg hminus]
          exact goesOn_exponentDigits 1 (c :: cs) e rest hread hrest more

theorem goesOn_exponent : GoesOn exponent exponent := by
  intro cs e rest hread hrest more
  cases cs with
  | nil =>
      obtain ⟨-, rfl⟩ := Prod.mk.inj (Option.some.inj hread)
      exact absurd rfl hrest
  | cons c cs =>
      rw [exponent] at hread
      rw [List.cons_append, exponent]
      split at hread
      next he => rw [if_pos he, goesOn_signedExponent cs e rest hread hrest more]
      next he =>
        obtain ⟨rfl, rfl⟩ := Prod.mk.inj (Option.some.inj hread)
        rw [if_neg he, List.cons_append]

/-- Nothing is left of an exponent only if nothing was there. -/
theorem ne_nil_of_exponent {cs rest : List Char} {e : Int} (h : exponent cs = some (e, rest))
    (hrest : rest ≠ []) : cs ≠ [] := by
  rintro rfl
  obtain ⟨-, rfl⟩ := Prod.mk.inj (Option.some.inj h)
  exact hrest rfl

theorem ne_nil_of_fraction {cs ds rest : List Char} (h : fraction cs = some (ds, rest))
    (hrest : rest ≠ []) : cs ≠ [] := by
  rintro rfl
  obtain ⟨-, rfl⟩ := Prod.mk.inj (Option.some.inj h)
  exact hrest rfl

theorem goesOn_unsigned (sign : Int) : GoesOn (unsigned sign) (unsigned sign) := by
  intro cs v rest hread hrest more
  unfold unsigned at hread
  split at hread
  · cases hread
  next hint =>
    split at hread
    · cases hread
    next frac tail hfrac =>
      split at hread
      · cases hread
      next exp rest' hexp =>
        obtain ⟨rfl, rfl⟩ := Prod.mk.inj (Option.some.inj hread)
        have htail := ne_nil_of_exponent hexp hrest
        have hdigits := digits_more (ne_nil_of_fraction hfrac htail) more
        have hfrac' := goesOn_fraction _ frac tail hfrac htail more
        have hexp' := goesOn_exponent tail exp rest' hexp hrest more
        rw [unsigned, hdigits]
        dsimp only
        rw [if_neg hint, hfrac']
        dsimp only
        rw [hexp']

theorem goesOn_number : GoesOn number number := by
  intro cs v rest hread hrest more
  cases cs with
  | nil => cases hread
  | cons c cs =>
      rw [number] at hread
      rw [List.cons_append, number]
      split at hread
      next hminus => rw [if_pos hminus, goesOn_unsigned (-1) cs v rest hread hrest more]
      next hminus =>
        rw [if_neg hminus]
        exact goesOn_unsigned 1 (c :: cs) v rest hread hrest more

theorem eq_num_of_unsigned {sign : Int} {cs rest : List Char} {v : Value}
    (h : unsigned sign cs = some (v, rest)) : ∃ m e, v = .num m e := by
  unfold unsigned at h
  split at h
  · cases h
  · split at h
    · cases h
    · split at h
      · cases h
      · obtain ⟨rfl, -⟩ := Prod.mk.inj (Option.some.inj h)
        exact ⟨_, _, rfl⟩

theorem eq_num_of_number {cs rest : List Char} {v : Value} (h : number cs = some (v, rest)) :
    ∃ m e, v = .num m e := by
  cases cs with
  | nil => cases h
  | cons c cs =>
      rw [number] at h
      split at h
      · exact eq_num_of_unsigned h
      · exact eq_num_of_unsigned h

/-! ### Values -/

theorem goesOn_element {f g : List Char → Option (Value × List Char)} (hfg : GoesOn f g)
    (hnil : f [] = none) : GoesOn (element f) (element g) := by
  intro cs v rest hread hrest more
  obtain ⟨⟨v', rest'⟩, hf, heq⟩ := Option.map_eq_some_iff.mp hread
  obtain ⟨rfl, rfl⟩ := Prod.mk.inj heq
  have hskip : skip cs ≠ [] := by
    intro hskip
    rw [hskip, hnil] at hf
    cases hf
  have hrest' : rest' ≠ [] := by
    rintro rfl
    exact hrest rfl
  rw [element, skip_append hskip, hfg _ v' rest' hf hrest' more, Option.map_some]
  dsimp only
  rw [skip_append hrest]

theorem goesOn_member {f g : List Char → Option (Value × List Char)} (hfg : GoesOn f g)
    (hnil : f [] = none) {fuel fuel' : Nat} (hfuel : fuel ≤ fuel') :
    GoesOn (member f fuel) (member g fuel') := by
  intro cs field rest hread hrest more
  unfold member at hread
  split at hread
  · cases hread
  next c tail hskip =>
    split at hread
    next hquote =>
      unfold keyAndValue at hread
      split at hread
      · cases hread
      next key behind hkey =>
        split at hread
        · cases hread
        next colon tail' hbehind =>
          split at hread
          next hcolon =>
            obtain ⟨⟨v, rest'⟩, hvalue, heq⟩ := Option.map_eq_some_iff.mp hread
            obtain ⟨rfl, rfl⟩ := Prod.mk.inj heq
            have hskip' := @skip_append cs (by simp [hskip]) more
            have hbehind' := @skip_append behind (by simp [hbehind]) more
            have hkey' := ends_stringBody hfuel tail key behind hkey more
            have hvalue' := goesOn_element hfg hnil tail' v rest' hvalue hrest more
            simp [member, keyAndValue, hskip', hskip, hquote, hkey', hbehind', hbehind, hcolon,
              hvalue']
          next => cases hread
    next => cases hread

/-- The value says where it ends, or something else does. -/
def Closed (v : Value) (rest : List Char) : Prop := rest ≠ [] ∨ ∀ m e, v ≠ .num m e

def ValuesGoOn (fuel fuel' : Nat) : Prop :=
  ∀ cs v rest, value fuel cs = some (v, rest) → Closed v rest →
    ∀ more, value fuel' (cs ++ more) = some (v, rest ++ more)

theorem ValuesGoOn.goesOn {fuel fuel' : Nat} (h : ValuesGoOn fuel fuel') :
    GoesOn (value fuel) (value fuel') :=
  fun cs v rest hread hrest more => h cs v rest hread (.inl hrest) more

theorem value_nil (fuel : Nat) : value fuel [] = none := by
  cases fuel with
  | zero => rfl
  | succ fuel => rfl

/-- The closing bracket, behind white space. -/
theorem skip_close {cs : List Char} {c : Char} (h : (skip cs).head? = some c) (more : List Char) :
    (skip (cs ++ more)).head? = some c ∧ (skip (cs ++ more)).tail = (skip cs).tail ++ more := by
  have hne : skip cs ≠ [] := by
    intro hnil
    rw [hnil] at h
    cases h
  obtain ⟨d, tail, hcs⟩ := List.exists_cons_of_ne_nil hne
  rw [skip_append hne, hcs]
  rw [hcs] at h
  exact ⟨h, rfl⟩

theorem head_skip_ne {cs rest : List Char} {α : Type} {a : α} {c : Char}
    {f : List Char → Option (α × List Char)} (hread : f cs = some (a, rest))
    (hblank : skip cs = [] → f cs = none) (h : (skip cs).head? ≠ some c) (more : List Char) :
    (skip (cs ++ more)).head? ≠ some c := by
  have hne : skip cs ≠ [] := by
    intro hnil
    rw [hblank hnil] at hread
    cases hread
  obtain ⟨d, tail, hcs⟩ := List.exists_cons_of_ne_nil hne
  rw [skip_append hne, hcs]
  rwa [hcs] at h

theorem items_blank {fuel : Nat} {cs : List Char} (h : skip cs = []) : items fuel cs = none := by
  cases fuel with
  | zero => rfl
  | succ fuel => rw [items, element, h, value_nil, Option.map_none]

theorem members_blank {fuel : Nat} {cs : List Char} (h : skip cs = []) :
    members fuel cs = none := by
  cases fuel with
  | zero => rfl
  | succ fuel =>
      have hmember : member (value fuel) fuel cs = none := by
        unfold member
        rw [h]
      rw [members, hmember]

theorem value_step {fuel fuel' : Nat} (hfuel : fuel ≤ fuel')
    (hitems : Ends (items fuel) (items fuel')) (hmembers : Ends (members fuel) (members fuel')) :
    ValuesGoOn (fuel + 1) (fuel' + 1) := by
  intro cs v rest hread hclosed more
  cases cs with
  | nil => cases hread
  | cons c cs =>
      rw [value] at hread
      rw [List.cons_append, value]
      split at hread
      next hquote =>
        rw [if_pos hquote]
        exact (ends_stringBody hfuel).map (fun cs => Value.str (String.ofList cs)) cs v rest hread
          more
      next hquote =>
        rw [if_neg hquote]
        split at hread
        next hbracket =>
          rw [if_pos hbracket]
          split at hread
          next hclose =>
            obtain ⟨rfl, rfl⟩ := Prod.mk.inj (Option.some.inj hread)
            obtain ⟨hhead, htail⟩ := skip_close hclose more
            rw [if_pos hhead, htail]
          next hclose =>
            have hnext := head_skip_ne (f := fun cs => (items fuel cs).map fun read =>
              (Value.arr read.1, read.2)) hread (fun h => by simp [items_blank h]) hclose more
            rw [if_neg hnext]
            exact hitems.map Value.arr cs v rest hread more
        next hbracket =>
          rw [if_neg hbracket]
          split at hread
          next hbrace =>
            rw [if_pos hbrace]
            split at hread
            next hclose =>
              obtain ⟨rfl, rfl⟩ := Prod.mk.inj (Option.some.inj hread)
              obtain ⟨hhead, htail⟩ := skip_close hclose more
              rw [if_pos hhead, htail]
            next hclose =>
              have hnext := head_skip_ne (f := fun cs => (members fuel cs).map fun read =>
                (Value.obj read.1, read.2)) hread (fun h => by simp [members_blank h]) hclose more
              rw [if_neg hnext]
              exact hmembers.map Value.obj cs v rest hread more
          next hbrace =>
            rw [if_neg hbrace]
            split at hread
            next hn => rw [if_pos hn, ← List.cons_append, ends_keyword _ _ (c :: cs) v rest hread more]
            next hn =>
              rw [if_neg hn]
              split at hread
              next ht =>
                rw [if_pos ht, ← List.cons_append, ends_keyword _ _ (c :: cs) v rest hread more]
              next ht =>
                rw [if_neg ht]
                split at hread
                next hf =>
                  rw [if_pos hf, ← List.cons_append, ends_keyword _ _ (c :: cs) v rest hread more]
                next hf =>
                  obtain ⟨m, e, rfl⟩ := eq_num_of_number hread
                  have hrest : rest ≠ [] := hclosed.resolve_right fun h => h m e rfl
                  rw [if_neg hf, ← List.cons_append,
                    goesOn_number (c :: cs) _ rest hread hrest more]

theorem items_step {fuel fuel' : Nat} (hvalue : GoesOn (value fuel) (value fuel'))
    (hitems : Ends (items fuel) (items fuel')) : Ends (items (fuel + 1)) (items (fuel' + 1)) := by
  intro cs vs rest hread more
  rw [items] at hread
  rw [items]
  split at hread
  · cases hread
  · cases hread
  next v c tail helement =>
    have hmore := goesOn_element hvalue (value_nil fuel) cs v (c :: tail) helement (by simp) more
    rw [hmore, List.cons_append]
    dsimp only
    split at hread
    next hcomma =>
      rw [if_pos hcomma]
      exact hitems.map (v :: ·) tail vs rest hread more
    next hcomma =>
      rw [if_neg hcomma]
      split at hread
      next hclose =>
        obtain ⟨rfl, rfl⟩ := Prod.mk.inj (Option.some.inj hread)
        rw [if_pos hclose]
      next => cases hread

theorem members_step {fuel fuel' : Nat} (hfuel : fuel ≤ fuel')
    (hvalue : GoesOn (value fuel) (value fuel')) (hmembers : Ends (members fuel) (members fuel')) :
    Ends (members (fuel + 1)) (members (fuel' + 1)) := by
  intro cs fields rest hread more
  rw [members] at hread
  rw [members]
  split at hread
  · cases hread
  · cases hread
  next field c tail hmember =>
    have hmore := goesOn_member hvalue (value_nil fuel) hfuel cs field (c :: tail) hmember (by simp)
      more
    rw [hmore, List.cons_append]
    dsimp only
    split at hread
    next hcomma =>
      rw [if_pos hcomma]
      exact hmembers.map (field :: ·) tail fields rest hread more
    next hcomma =>
      rw [if_neg hcomma]
      split at hread
      next hclose =>
        obtain ⟨rfl, rfl⟩ := Prod.mk.inj (Option.some.inj hread)
        rw [if_pos hclose]
      next => cases hread

/-- What is read of a text is read of every longer one, and with more fuel. -/
theorem reads_more (fuel : Nat) : ∀ fuel', fuel ≤ fuel' →
    ValuesGoOn fuel fuel' ∧ Ends (items fuel) (items fuel') ∧
      Ends (members fuel) (members fuel') := by
  induction fuel with
  | zero =>
      intro fuel' _
      refine ⟨?_, ?_, ?_⟩ <;> intro cs a rest hread <;> cases hread
  | succ fuel ih =>
      intro fuel' hfuel
      obtain ⟨fuel', rfl⟩ := Nat.exists_eq_add_one_of_ne_zero (Nat.ne_zero_of_lt hfuel)
      have hfuel := Nat.le_of_succ_le_succ hfuel
      obtain ⟨hvalue, hitems, hmembers⟩ := ih fuel' hfuel
      exact ⟨value_step hfuel hitems hmembers, items_step hvalue.goesOn hitems,
        members_step hfuel hvalue.goesOn hmembers⟩

/-! ### Cut short -/

theorem decode_eq_some {cs : List Char} {v : Value} (h : decode cs = some v) :
    ∃ rest, value (cs.length + 1) (skip cs) = some (v, rest) ∧ skip rest = [] := by
  unfold decode at h
  split at h
  next w hread =>
    obtain rfl := Option.some.inj h
    obtain ⟨⟨w', rest⟩, hvalue, heq⟩ := Option.map_eq_some_iff.mp hread
    obtain ⟨rfl, hskip⟩ := Prod.mk.inj heq
    exact ⟨rest, hvalue, hskip⟩
  next => cases h

theorem blank_of_skip {cs : List Char} (h : skip cs = []) : Blank cs := by
  unfold skip at h
  exact fun c hc => List.dropWhile_eq_nil_iff.mp h c hc

/-- If a text and its beginning are both JSON, and the beginning is no number, then only white
space is between them. -/
theorem blank_of_decode {cs more : List Char} {v w : Value} (hcut : decode cs = some v)
    (hnum : ∀ m e, v ≠ .num m e) (hall : decode (cs ++ more) = some w) : Blank more := by
  obtain ⟨rest, hvalue, -⟩ := decode_eq_some hcut
  obtain ⟨rest', hvalue', hrest'⟩ := decode_eq_some hall
  have hskip : skip cs ≠ [] := by
    intro hskip
    rw [hskip, value_nil] at hvalue
    cases hvalue
  have hfuel : cs.length + 1 ≤ (cs ++ more).length + 1 := by simp
  have hread := (reads_more _ _ hfuel).1 _ v rest hvalue (.inr hnum) more
  rw [skip_append hskip] at hvalue'
  obtain ⟨-, rfl⟩ := Prod.mk.inj (Option.some.inj (hvalue'.symm.trans hread))
  exact fun c hc => blank_of_skip hrest' c (List.mem_append_right _ hc)

/-- A list that is cut short is no JSON, unless nothing but white space is missing. -/
theorem decode_eq_none_of_cut {cs more : List Char} {w : Value} (hall : decode ('[' :: cs ++ more) = some w)
    (hmore : ¬ Blank more) : decode ('[' :: cs) = none := by
  cases hcut : decode ('[' :: cs) with
  | none => rfl
  | some v =>
      refine absurd (blank_of_decode hcut ?_ hall) hmore
      intro m e hnum
      obtain ⟨rest, hvalue, -⟩ := decode_eq_some hcut
      have hskip : skip ('[' :: cs) = '[' :: cs := Solid.skip_eq ⟨'[', cs, rfl, by decide⟩
      rw [hskip, hnum, value, if_neg (by decide), if_pos rfl] at hvalue
      split at hvalue
      · cases hvalue
      · obtain ⟨read, -, heq⟩ := Option.map_eq_some_iff.mp hvalue
        cases heq

end JsonText
