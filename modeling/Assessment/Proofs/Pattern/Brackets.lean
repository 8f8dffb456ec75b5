import Assessment.Proofs.Pattern.Escapes
import Mathlib.Data.List.TakeWhile

/-
  Readers of brackets.

  An escape that depends on what follows a brace is a test of
  a place, and no member of a set. So brackets have no
  exceptions. A class is the one thing that is tried first and
  left for something else; its signs are all given, so that
  what follows them does not count.

  Main declarations:
    * `local_bracketItem`
    * `local_posix`
    * `local_bracketRest` and `bracketRest_fuel`
    * `local_bracket`
-/

------------------------------------------------------------
-- Items
------------------------------------------------------------

namespace Assessment

namespace Pattern

open Reader

variable {after : List Char}

theorem bracketAtom_eq (flags : Flags) :
    bracketAtom flags =
      onHead (· == '\\')
        (fun _ => escape? flags)
        (onHead (fun _ => true)
          (fun c => give (some (.char c false)))
          (give none)) := by
  funext cs
  unfold bracketAtom
  split
  next => rfl
  next => rw [onHead_hit]
  next c cs hOther =>
    rw [onHead_miss (by simpa using hOther)]
    rfl

theorem local_bracketAtom (flags : Flags) :
    Local (Dangling flags.verbose) (bracketAtom flags) := by
  rw [bracketAtom_eq]
  exact Local.onHead (fun _ => local_escape flags)
    (Local.onHead (fun _ => .give _) (.give _))

/- The first character is always taken. -/
theorem bracketAtom_suffix
    {flags : Flags}
    {c : Char}
    {cs rest : List Char}
    {a : Atom}
    (hRead : bracketAtom flags (c :: cs) = some (a, rest)) :
    rest <:+ cs := by
  rw [bracketAtom_eq, onHead_cons, onHead_cons, if_pos rfl] at hRead
  split_ifs at hRead
  · exact (local_escape flags).suffix hRead
  · exact give_suffix hRead

theorem peekVerbose_append
    (inComment : Bool)
    (x : List Char) :
    peekVerbose inComment (x ++ ')' :: after) =
      (peekVerbose inComment x).or (some ')') := by
  induction x generalizing inComment with
  | nil => cases inComment <;> rfl
  | cons c x ih =>
      rw [List.cons_append, peekVerbose, peekVerbose]
      split_ifs
      · exact ih _
      · exact ih _
      · rfl

theorem head?_of_peekVerbose
    {inComment : Bool}
    {x : List Char}
    {d : Char}
    (hNone : peekVerbose inComment x = none)
    (hSign : d = ']' ∨ d = '-') :
    x.head? ≠ some d := by
  cases x with
  | nil => simp
  | cons c x =>
      intro hHead
      cases Option.some.inj hHead
      rcases hSign with rfl | rfl <;>
        simp [peekVerbose, Text.isBlank] at hNone

theorem peek_append
    {verbose : Bool}
    {x : List Char}
    {d : Char}
    (hSign : d = ']' ∨ d = '-') :
    peek verbose (x ++ ')' :: after) = some d ↔
      peek verbose x = some d := by
  have hOther : some ')' ≠ some d := by
    rcases hSign with rfl | rfl <;> decide
  unfold peek
  split_ifs
  · rw [peekVerbose_append]
    cases hNext : peekVerbose false x with
    | none =>
        have hHead := head?_of_peekVerbose hNext hSign
        simp [hOther, hHead]
    | some c => simp
  · cases x with
    | nil => simp [hOther]
    | cons c x => simp

/- Whether a hyphen is not the sign of a range. -/
def endsItem (verbose : Bool) : List Char → Bool
  | '-' :: rest =>
      peek verbose rest == some ']' || peek verbose rest == some '-'
  | _ => false

theorem endsItem_append (verbose : Bool) (x : List Char) :
    endsItem verbose (x ++ ')' :: after) = endsItem verbose x := by
  rcases x with _ | ⟨c, x⟩
  · rfl
  by_cases hHyphen : c = '-'
  · subst hHyphen
    rw [List.cons_append, endsItem, endsItem, Bool.eq_iff_iff]
    simp only [Bool.or_eq_true, beq_iff_eq]
    rw [peek_append (Or.inl rfl), peek_append (Or.inr rfl)]
  · rw [List.cons_append, endsItem.eq_2, endsItem.eq_2]
    · intro rest hSame
      exact hHyphen (List.cons.inj hSame).1
    · intro rest hSame
      exact hHyphen (List.cons.inj hSame).1

/- What follows the first atom of an item. -/
def afterAtom (flags : Flags) (a : Atom) : Reader CharSet :=
  onTest (endsItem flags.verbose)
    (give (atomSet? flags a))
    (onHead (· == '-')
      (fun _ rest =>
        Reader.andThen (bracketAtom flags)
          (fun b => give (rangeSet? flags a b))
          (skip flags.verbose rest))
      (give (atomSet? flags a)))

theorem local_afterAtom (flags : Flags) (a : Atom) :
    Local Never (afterAtom flags a) := by
  refine Local.onTest (.give _) (Local.onHead (fun _ => ?_) (.give _))
    fun x _ => endsItem_append _ x
  refine (local_skip _).after
    ((local_bracketAtom flags).andThen_of (fun _ => .give _) ?_)
  -- A test of a place is no end of a range.
  rintro b _ c _ _ ⟨⟨l, rfl⟩, -⟩ hRange
  cases a <;> cases hRange

theorem bracketItem_eq (flags : Flags) :
    bracketItem flags =
      Reader.andThen (bracketAtom flags) fun a cs =>
        afterAtom flags a (skip flags.verbose cs) := by
  funext cs
  unfold bracketItem Reader.andThen afterAtom
  rcases bracketAtom flags cs with _ | ⟨a, cs⟩
  · rfl
  simp only [Option.bind_eq_bind, Option.bind_some]
  generalize skip flags.verbose cs = w
  have hGive (set : Option CharSet) (rest : List Char) :
      (set.bind fun s => pure (s, rest)) = give set rest := by
    cases set <;> rfl
  split
  next rest =>
    have hEnds :
        endsItem flags.verbose ('-' :: rest) =
          (peek flags.verbose rest == some ']' ||
            peek flags.verbose rest == some '-') :=
      rfl
    rw [onTest, hEnds]
    split_ifs
    · exact hGive _ _
    · rw [onHead_hit, andThen]
      rcases bracketAtom flags (skip flags.verbose rest) with
        _ | ⟨b, rest⟩
      · rfl
      · exact hGive _ _
  next hOther =>
    have hNot : endsItem flags.verbose w = false := by
      unfold endsItem
      split
      next rest => exact (hOther rest rfl).elim
      next => rfl
    rw [onTest, hNot, if_neg Bool.false_ne_true, onHead_miss hOther]
    exact hGive _ _

theorem local_bracketItem (flags : Flags) :
    Local Never (bracketItem flags) := by
  rw [bracketItem_eq]
  refine (local_bracketAtom flags).andThen_of
    (fun a => (local_skip _).after (local_afterAtom flags a)) ?_
  -- A test of a place is no member of a set.
  rintro a _ b y' after ⟨⟨l, rfl⟩, cs, rfl, -⟩ hSet
  rw [List.cons_append, skip_of_sign (by decide) (by decide),
    afterAtom, onTest, endsItem.eq_2 _ _ (by simp),
    if_neg Bool.false_ne_true, onHead_miss (by simp)] at hSet
  cases hSet

/- The first character of an item is always taken. -/
theorem bracketItem_suffix
    {flags : Flags}
    {c : Char}
    {cs rest : List Char}
    {set : CharSet}
    (hRead : bracketItem flags (c :: cs) = some (set, rest)) :
    rest <:+ cs := by
  rw [bracketItem_eq] at hRead
  obtain ⟨p, hFirst, hSecond⟩ := Option.bind_eq_some_iff.mp hRead
  exact ((local_afterAtom _ _).suffix hSecond).trans
    ((skip_suffix _ _).trans (bracketAtom_suffix hFirst))

------------------------------------------------------------
-- Classes
------------------------------------------------------------

/- A name in front of the signs that close a class. -/
def Closed (cs name rest : List Char) : Prop :=
  cs = name ++ ':' :: ']' :: rest ∧ ∀ c ∈ name, c ≠ ':'

theorem closed_iff {cs name rest : List Char} :
    Closed cs name rest ↔
      cs.takeWhile (· != ':') = name ∧
        cs.dropWhile (· != ':') = ':' :: ']' :: rest := by
  constructor
  · rintro ⟨rfl, hName⟩
    have hAll : ∀ c ∈ name, (c != ':') = true := by simpa using hName
    rw [List.takeWhile_append_of_pos hAll,
      List.dropWhile_append_of_pos hAll]
    simp
  · rintro ⟨rfl, hRest⟩
    refine ⟨?_, fun c hMem => ?_⟩
    · rw [← hRest, List.takeWhile_append_dropWhile]
    · simpa using List.mem_takeWhile_imp hMem

/- The class with a name up to the next colon. -/
def classBody :
    Bool × List Char → Option (CharSet × Bool × List Char)
  | (negated, cs) =>
      match cs.dropWhile (· != ':') with
      | ':' :: ']' :: rest =>
          (CharSet.posix?
            (String.ofList (cs.takeWhile (· != ':')))).map
              fun s => (s, negated, rest)
      | _ => none

theorem classBody_eq_some_iff
    {sign negated : Bool}
    {body rest : List Char}
    {set : CharSet} :
    classBody (sign, body) = some (set, negated, rest) ↔
      sign = negated ∧ ∃ name, Closed body name rest ∧
        CharSet.posix? (String.ofList name) = some set := by
  unfold classBody
  simp only [closed_iff]
  split
  next rest' hRest =>
    rw [hRest]
    cases hSet : CharSet.posix?
        (String.ofList (body.takeWhile (· != ':'))) with
    | none => simp [hSet]
    | some s =>
        simp [hSet]
        tauto
  next hOther =>
    constructor
    · intro hNone
      cases hNone
    · rintro ⟨-, name, ⟨-, hRest⟩, -⟩
      exact (hOther _ hRest).elim

theorem posixItem?_colon (cs : List Char) :
    posixItem? (':' :: cs) =
      classBody
        (match cs with
        | '^' :: rest => (true, rest)
        | _ => (false, cs)) :=
  rfl

/- How a class is written, behind the bracket. -/
theorem posixItem?_eq_some_iff
    {cs rest : List Char}
    {set : CharSet}
    {negated : Bool} :
    posixItem? cs = some (set, negated, rest) ↔
      ∃ name body,
        cs = ':' :: ((if negated then ['^'] else []) ++ body) ∧
          (negated = false → body.head? ≠ some '^') ∧
          Closed body name rest ∧
          CharSet.posix? (String.ofList name) = some set := by
  constructor
  · intro hRead
    by_cases hColon : ∃ tail, cs = ':' :: tail
    · obtain ⟨tail, rfl⟩ := hColon
      rw [posixItem?_colon] at hRead
      split at hRead
      next body =>
        obtain ⟨rfl, name, hName⟩ := classBody_eq_some_iff.mp hRead
        exact ⟨name, body, rfl, by simp, hName⟩
      next hOther =>
        obtain ⟨rfl, name, hName⟩ := classBody_eq_some_iff.mp hRead
        refine ⟨name, tail, rfl, fun _ hHead => ?_, hName⟩
        cases tail with
        | nil => cases hHead
        | cons c tail =>
            cases hHead
            exact hOther tail rfl
    · unfold posixItem? at hRead
      split at hRead
      next tail => exact (hColon ⟨tail, rfl⟩).elim
      next => cases hRead
  · rintro ⟨name, body, rfl, hHead, hName⟩
    rw [posixItem?_colon]
    cases negated
    · have hSign := hHead rfl
      simp only [Bool.false_eq_true, if_false, List.nil_append]
      split
      next => simp at hSign
      next => exact classBody_eq_some_iff.mpr ⟨rfl, name, hName⟩
    · exact classBody_eq_some_iff.mpr ⟨rfl, name, hName⟩

theorem posixItem?_append
    {cs rest : List Char}
    {set : CharSet}
    {negated : Bool}
    (more : List Char)
    (hRead : posixItem? cs = some (set, negated, rest)) :
    posixItem? (cs ++ more) = some (set, negated, rest ++ more) := by
  obtain ⟨name, body, rfl, hHead, ⟨rfl, hName⟩, hSet⟩ :=
    posixItem?_eq_some_iff.mp hRead
  refine posixItem?_eq_some_iff.mpr
    ⟨name, name ++ ':' :: ']' :: (rest ++ more), by simp, ?_,
      ⟨rfl, hName⟩, hSet⟩
  intro hPlain
  have hSign := hHead hPlain
  cases name with
  | nil => simp
  | cons c name => simpa using hSign

theorem posixItem?_suffix
    {cs rest : List Char}
    {set : CharSet}
    {negated : Bool}
    (hRead : posixItem? cs = some (set, negated, rest)) :
    rest <:+ cs := by
  obtain ⟨name, body, rfl, -, ⟨rfl, -⟩, -⟩ :=
    posixItem?_eq_some_iff.mp hRead
  refine List.IsSuffix.trans ?_ (List.suffix_cons _ _)
  refine List.IsSuffix.trans ?_ (List.suffix_append _ _)
  refine List.IsSuffix.trans ?_ (List.suffix_append _ _)
  exact (List.suffix_cons _ _).trans (List.suffix_cons _ _)

theorem posixItem?_cut
    {x y : List Char}
    {set : CharSet}
    {negated : Bool}
    (hLong :
      posixItem? (x ++ ')' :: after) =
        some (set, negated, y ++ ')' :: after)) :
    posixItem? x = some (set, negated, y) := by
  obtain ⟨name, body, hBody, hHead, ⟨rfl, hName⟩, hSet⟩ :=
    posixItem?_eq_some_iff.mp hLong
  have hBoth :
      x ++ ')' :: after =
        ':' :: ((if negated then ['^'] else []) ++
          (name ++ ':' :: ']' :: y)) ++ ')' :: after := by
    rw [hBody]
    simp
  refine posixItem?_eq_some_iff.mpr
    ⟨name, _, List.append_cancel_right hBoth, ?_, ⟨rfl, hName⟩, hSet⟩
  intro hPlain
  have hSign := hHead hPlain
  cases name with
  | nil => simp
  | cons c name => simpa using hSign

/- A class, as a reader. -/
def posix : Reader (CharSet × Bool) :=
  fun cs =>
    (posixItem? cs).map fun (set, negated, rest) =>
      ((set, negated), rest)

theorem posix_eq_some_iff
    {cs rest : List Char}
    {set : CharSet}
    {negated : Bool} :
    posix cs = some ((set, negated), rest) ↔
      posixItem? cs = some (set, negated, rest) := by
  unfold posix
  rcases posixItem? cs with _ | ⟨s, n, r⟩ <;> simp [and_assoc]

theorem local_posix : Local Never posix where
  suffix hRead := posixItem?_suffix (posix_eq_some_iff.mp hRead)
  cut hLong :=
    Or.inl (posix_eq_some_iff.mpr
      (posixItem?_cut (posix_eq_some_iff.mp hLong)))

------------------------------------------------------------
-- Starts
------------------------------------------------------------

/- The hyphens in front, as a reader. -/
def hyphens (verbose any : Bool) (fuel : Nat) : Reader Bool :=
  fun cs => some (leadingHyphens verbose any fuel cs)

theorem local_hyphens (verbose any : Bool) (fuel : Nat) :
    Local Never (hyphens verbose any fuel) := by
  induction fuel generalizing any with
  | zero =>
      have hForm : hyphens verbose any 0 = give (some any) := by
        funext cs
        cases cs <;> rfl
      rw [hForm]
      exact .give _
  | succ fuel ih =>
      have hForm :
          hyphens verbose any (fuel + 1) =
            onHead (· == '-')
              (fun _ cs => hyphens verbose true fuel (skip verbose cs))
              (give (some any)) := by
        funext cs
        by_cases hHyphen : ∃ rest, cs = '-' :: rest
        · obtain ⟨rest, rfl⟩ := hHyphen
          rw [onHead_hit]
          rfl
        · rw [onHead_miss fun rest hRest => hHyphen ⟨rest, hRest⟩]
          unfold hyphens leadingHyphens
          split
          next rest _ => exact (hHyphen ⟨rest, rfl⟩).elim
          next => rfl
      rw [hForm]
      exact Local.onHead (fun _ => (local_skip _).after (ih true))
        (.give _)

theorem hyphens_fuel
    {verbose any : Bool}
    {n m : Nat}
    {cs : List Char}
    (hN : cs.length ≤ n)
    (hM : cs.length ≤ m) :
    hyphens verbose any n cs = hyphens verbose any m cs := by
  refine same_of_fuel verbose (fun n b cs => hyphens verbose b n cs)
    ?_ ?_ hN hM
  · rintro (_ | n) b <;> rfl
  · intro n m b c cs hRest
    by_cases hHyphen : c = '-'
    · subst hHyphen
      exact hRest true
    · unfold hyphens leadingHyphens
      simp [hHyphen]

/- The start of a bracket, as a reader. -/
def start (flags : Flags) : Reader (Bool × CharSet) :=
  fun cs =>
    let (negated, first, rest) := bracketStart flags cs
    some ((negated, first), rest)

/- The members at the start of a bracket. -/
def firstMembers (flags : Flags) : Reader CharSet :=
  Reader.andThen
    (fun cs => hyphens flags.verbose false cs.length cs)
    fun any =>
      if any then give (some (.only '-'))
      else
        onHead (· == ']')
          (fun _ => give (some (.only ']')))
          (give (some .none))

/- The sign of a negated bracket, if there is one. -/
def signOf (verbose : Bool) (cs : List Char) : Bool × List Char :=
  match cs with
  | '^' :: rest => (true, skip verbose rest)
  | _ => (false, cs)

theorem signOf_miss
    {verbose : Bool}
    {cs : List Char}
    (hOther : ∀ rest, cs = '^' :: rest → False) :
    signOf verbose cs = (false, cs) := by
  unfold signOf
  split
  next rest => exact (hOther rest rfl).elim
  next => rfl

/- The members in front, behind the sign. -/
def behindSign (flags : Flags) :
    Bool × List Char → Bool × CharSet × List Char
  | (negated, cs) =>
      let (any, cs) :=
        leadingHyphens flags.verbose false cs.length cs
      if any then (negated, .only '-', cs)
      else
        match cs with
        | ']' :: rest => (negated, .only ']', rest)
        | _ => (negated, .none, cs)

theorem behindSign_eq
    {flags : Flags}
    (negated : Bool)
    (cs : List Char) :
    some
        (((behindSign flags (negated, cs)).1,
            (behindSign flags (negated, cs)).2.1),
          (behindSign flags (negated, cs)).2.2) =
      Reader.andThen (firstMembers flags)
        (fun first => give (some (negated, first))) cs := by
  unfold behindSign firstMembers Reader.andThen hyphens
  dsimp only
  generalize leadingHyphens _ _ _ _ = p
  obtain ⟨any, cs⟩ := p
  cases any
  · simp only [Option.bind_some, Bool.false_eq_true, if_false]
    split
    next rest =>
      rw [onHead_hit]
      rfl
    next hOther =>
      rw [onHead_miss hOther]
      rfl
  · rfl

theorem start_eq (flags : Flags) :
    start flags = fun cs =>
      onHead (· == '^')
        (fun _ cs =>
          Reader.andThen (firstMembers flags)
            (fun first => give (some (true, first)))
            (skip flags.verbose cs))
        (Reader.andThen (firstMembers flags) fun first =>
          give (some (false, first)))
        (skip flags.verbose cs) := by
  funext cs
  have hStart :
      bracketStart flags cs =
        behindSign flags
          (signOf flags.verbose (skip flags.verbose cs)) :=
    rfl
  unfold start
  rw [hStart]
  generalize skip flags.verbose cs = w
  by_cases hSign : ∃ tail, w = '^' :: tail
  · obtain ⟨tail, rfl⟩ := hSign
    rw [onHead_hit]
    exact behindSign_eq true _
  · have hOther : ∀ tail, w = '^' :: tail → False :=
      fun tail hTail => hSign ⟨tail, hTail⟩
    rw [onHead_miss hOther, signOf_miss hOther]
    exact behindSign_eq false _

theorem local_start (flags : Flags) : Local Never (start flags) := by
  have hFirst : Local Never (firstMembers flags) := by
    refine Local.andThen ?_ fun any => ?_
    · exact Local.of_fuel (local_hyphens flags.verbose false)
        fun n cs hN => hyphens_fuel hN (Nat.le_refl _)
    · split_ifs
      · exact .give _
      · exact Local.onHead (fun _ => .give _) (.give _)
  rw [start_eq]
  refine (local_skip _).after (Local.onHead (fun _ => ?_) ?_)
  · exact (local_skip _).after (hFirst.andThen fun _ => .give _)
  · exact hFirst.andThen fun _ => .give _

------------------------------------------------------------
-- Brackets
------------------------------------------------------------

theorem posix_append
    (cs : List Char)
    (a : CharSet × Bool)
    (rest more : List Char)
    (hRead : posix cs = some (a, rest)) :
    posix (cs ++ more) = some (a, rest ++ more) :=
  posix_eq_some_iff.mpr
    (posixItem?_append more (posix_eq_some_iff.mp hRead))

theorem bracketRest_eq
    (flags : Flags)
    (fuel : Nat)
    (negated : Bool)
    (pending : Option (SetOperator × CharSet))
    (members : CharSet) :
    bracketRest flags (fuel + 1) negated pending members =
      let more (set : CharSet) :=
        bracketRest flags fuel negated pending (.union members set)
      let apply (op : SetOperator) :=
        bracketRest flags fuel negated
          (some (op, combine flags pending members)) .none
      fun cs =>
        onHead (· == '[')
          (fun _ =>
            Reader.orElse posix
              (fun (set, inverse) =>
                Reader.andThen
                  (give (flags.negate? inverse (flags.fold set)))
                  more)
              (Reader.andThen (start flags) fun (inverse, first) =>
                Reader.andThen
                  (bracketRest flags fuel inverse none first)
                  more))
          (onHead (· == ']')
            (fun _ =>
              give (flags.negate? negated
                (flags.fold (combine flags pending members))))
            (onTwo '&' (apply .intersection)
              (onTwo '-' (apply .difference)
                (onTwo '~' (apply .symmetric)
                  (Reader.andThen (bracketItem flags) more)))))
          (skip flags.verbose cs) := by
  dsimp only
  funext cs
  rw [bracketRest]
  generalize skip flags.verbose cs = w
  split
  next => rfl
  next rest =>
    rw [onHead_hit, orElse, posix]
    split
    next set inverse rest hPosix =>
      rw [hPosix, Option.map_some]
      dsimp only
      rw [andThen, give]
      cases flags.negate? inverse (flags.fold set) <;> rfl
    next hNone =>
      rw [hNone, Option.map_none]
      dsimp only
      rw [andThen, start, Option.bind_some, andThen]
      cases bracketRest flags fuel (bracketStart flags rest).1 none
          (bracketStart flags rest).2.1
          (bracketStart flags rest).2.2 <;> rfl
  next rest =>
    rw [onHead_miss (by simp), onHead_hit, give]
    dsimp only
    cases flags.negate? negated
        (flags.fold (combine flags pending members)) <;> rfl
  next rest =>
    rw [onHead_miss (by simp), onHead_miss (by simp), onTwo_hit]
  next rest =>
    rw [onHead_miss (by simp), onHead_miss (by simp),
      onTwo_miss (by simp), onTwo_hit]
  next rest =>
    rw [onHead_miss (by simp), onHead_miss (by simp),
      onTwo_miss (by simp), onTwo_miss (by simp), onTwo_hit]
  next hOpen hClose hAnd hMinus hTilde =>
    rw [onHead_miss hOpen, onHead_miss hClose, onTwo_miss hAnd,
      onTwo_miss hMinus, onTwo_miss hTilde, andThen]
    cases bracketItem flags w <;> rfl

theorem local_bracketRest
    (flags : Flags)
    (fuel : Nat)
    (negated : Bool)
    (pending : Option (SetOperator × CharSet))
    (members : CharSet) :
    Local Never (bracketRest flags fuel negated pending members) := by
  induction fuel generalizing negated pending members with
  | zero =>
      have hForm :
          bracketRest flags 0 negated pending members = give none :=
        rfl
      rw [hForm]
      exact .give _
  | succ fuel ih =>
      rw [bracketRest_eq]
      refine (local_skip _).after (Local.onHead (fun _ => ?_)
        (Local.onHead (fun _ => .give _)
          (Local.onTwo (ih _ _ _)
            (Local.onTwo (ih _ _ _)
              (Local.onTwo (ih _ _ _) ?_ (by decide))
              (by decide))
            (by decide))))
      · refine Local.orElse local_posix posix_append (fun _ => ?_) ?_
        · exact (Local.give _).andThen fun _ => ih _ _ _
        · exact (local_start flags).andThen fun _ =>
            (ih _ _ _).andThen fun _ => ih _ _ _
      · exact (local_bracketItem flags).andThen fun _ => ih _ _ _

/- Fuel beyond the characters left does not count. -/
theorem bracketRest_fuel
    {flags : Flags}
    {n m : Nat}
    {negated : Bool}
    {pending : Option (SetOperator × CharSet)}
    {members : CharSet}
    {cs : List Char}
    (hN : cs.length < n)
    (hM : cs.length < m) :
    bracketRest flags n negated pending members cs =
      bracketRest flags m negated pending members cs := by
  induction n generalizing m negated pending members cs with
  | zero => omega
  | succ n ih =>
      obtain ⟨m, rfl⟩ : ∃ k, m = k + 1 := ⟨m - 1, by omega⟩
      have hSkip := (skip_suffix flags.verbose cs).length_le
      have hMore
          {sign : Bool}
          {left : Option (SetOperator × CharSet)}
          {set : CharSet}
          {rest : List Char}
          (hLess : rest.length < cs.length) :
          bracketRest flags n sign left set rest =
            bracketRest flags m sign left set rest :=
        ih (by omega) (by omega)
      rw [bracketRest_eq, bracketRest_eq]
      dsimp only
      rcases hW : skip flags.verbose cs with _ | ⟨c, w⟩
      · rfl
      rw [hW, List.length_cons] at hSkip
      rw [onHead_cons, onHead_cons, onHead_cons, onHead_cons]
      split_ifs
      · unfold Reader.orElse
        split
        next a rest hPosix =>
          have hRest := (local_posix.suffix hPosix).length_le
          refine andThen_congr fun set rest' hGive => ?_
          have hRest' := (give_suffix hGive).length_le
          exact hMore (by omega)
        next =>
          refine andThen_congr fun p rest hStart => ?_
          have hRest := ((local_start _).suffix hStart).length_le
          refine (andThen_congr_left (hMore (by omega))).trans
            (andThen_congr fun set rest' hInner => ?_)
          have hRest' :=
            ((local_bracketRest ..).suffix hInner).length_le
          exact hMore (by omega)
      · rfl
      · unfold Reader.onTwo
        have hDrop := (List.drop_suffix 1 w).length_le
        rw [List.drop_succ_cons]
        split_ifs
        · exact hMore (by omega)
        · exact hMore (by omega)
        · exact hMore (by omega)
        · refine andThen_congr fun set rest hItem => ?_
          have hRest := (bracketItem_suffix hItem).length_le
          exact hMore (by omega)

theorem local_bracket (flags : Flags) :
    Local Never (bracket? flags) := by
  have hForm :
      bracket? flags =
        Reader.andThen (start flags) fun p cs =>
          bracketRest flags (cs.length + 1) p.1 none p.2 cs := by
    funext cs
    rcases hBracket : bracketStart flags cs with
      ⟨negated, first, rest⟩
    have hStart :
        start flags cs = some ((negated, first), rest) := by
      rw [start, hBracket]
    have hLength := ((local_start flags).suffix hStart).length_le
    rw [bracket?, hBracket, andThen, hStart, Option.bind_some]
    exact bracketRest_fuel (by omega) (by simp)
  rw [hForm]
  refine (local_start flags).andThen fun p => ?_
  exact Local.of_fuel
    (fun n => local_bracketRest flags (n + 1) p.1 none p.2)
    fun n cs hN => bracketRest_fuel (by omega) (by omega)

end Pattern

end Assessment
