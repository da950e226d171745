import Mathlib.Data.Fintype.EquivFin
import Mathlib.Data.List.NodupEquivFin
import Blake2F.Proofs.Engine.Inverse

/-! A round as a function of its message: from any rows, each rows are reached by exactly one message. -/

namespace Blake2F

open Function

namespace Row

variable (row : Row)

/-- Rows are added in either order. -/
theorem add_comm (left right : Row) : left + right = right + left :=
  -- The order does not matter in any lane.
  (Row.mk.injEq ..).mpr ⟨UInt64.add_comm _ _, UInt64.add_comm _ _, UInt64.add_comm _ _,
    UInt64.add_comm _ _⟩

/-- A sum with a known row tells the other row, and may be any row. -/
theorem add_bijective : Bijective (row + ·) := by
  -- The known row is taken away again.
  refine bijective_iff_has_inverse.mpr ⟨(· - row), ?_, ?_⟩
  · intro words
    simp [add_comm row]
  · intro sum
    simp [add_comm row]

/-- A comparison with a known row tells the other row as well, and may be any row. -/
theorem xor_bijective : Bijective (row ^^^ ·) := by
  -- Comparing once more with the known row undoes it.
  refine bijective_iff_has_inverse.mpr ⟨(· ^^^ row), ?_, ?_⟩
  · intro words
    simp [xor_comm row]
  · intro compared
    simp [xor_comm row]

/-- What is left after taking a row away tells what has been taken. -/
theorem sub_sub_self (left right : Row) : left - (left - right) = right := by
  -- Differences wrap around in every lane, so nothing is cut off at zero.
  have lane (x y : Word) : x - (x - y) = y := by
    rw [UInt64.sub_eq_iff_eq_add, UInt64.add_comm, UInt64.sub_add_cancel]
  exact (Row.mk.injEq ..).mpr ⟨lane _ _, lane _ _, lane _ _, lane _ _⟩

/-- What is taken away from a known row, before another known row is, shows in what is left. -/
theorem sub_sub_bijective (from_ less : Row) : Bijective fun words => from_ - words - less := by
  -- Both known rows are put back before the difference is taken anew.
  refine bijective_iff_has_inverse.mpr ⟨fun left => from_ - (left + less), ?_, ?_⟩
  · intro words
    simp [sub_sub_self]
  · intro left
    simp [sub_sub_self]

/-- Turning a row loses none of its words. -/
theorem turnLeft_injective (count : Nat) : Injective (turnLeft · count) := by
  -- The turn back recovers the row.
  intro left right same
  rw [← turnRight_turnLeft left count, ← turnRight_turnLeft right count]
  exact congrArg (turnRight · count) same

/-- Turning the bits of every lane loses none of them, and reaches every row. -/
theorem rotateRight_bijective (amount : UInt64) (positive : 0 < amount.toNat)
    (within : amount.toNat < 64) : Bijective (rotateRight · amount) :=
  -- The turn to the other side is the inverse.
  bijective_iff_has_inverse.mpr ⟨(rotateLeft · amount),
    fun row => rotateLeft_rotateRight row positive within,
    fun row => rotateRight_rotateLeft row positive within⟩

end Row

namespace Rows

attribute [ext] Rows

section

variable (turnD turnB : UInt64) (rows : Rows)

/-! Each row that half of the mixing function changes shows the message words that it was fed. -/

/-- Row `a` is a sum with the message words, and so tells them. -/
theorem mix_a_bijective : Bijective fun words => (rows.mix turnD turnB words).a :=
  -- The other two terms of the sum are known.
  Row.add_bijective (rows.a + rows.b)

/-- Row `d` is compared with row `a` and then turned, which hides nothing. -/
theorem mix_d_bijective (positive : 0 < turnD.toNat) (within : turnD.toNat < 64) :
    Bijective fun words => (rows.mix turnD turnB words).d :=
  -- Each of the three steps from the words to it can be undone.
  (Row.rotateRight_bijective turnD positive within).comp
    ((Row.xor_bijective rows.d).comp (mix_a_bijective turnD turnB rows))

/-- Row `c` is a sum with row `d`, and so tells the words too. -/
theorem mix_c_bijective (positive : 0 < turnD.toNat) (within : turnD.toNat < 64) :
    Bijective fun words => (rows.mix turnD turnB words).c :=
  -- The row that is added to is known.
  (Row.add_bijective rows.c).comp (mix_d_bijective turnD turnB rows positive within)

/-- Row `b` is compared with row `c` and then turned, so all four rows tell the words. -/
theorem mix_b_bijective (positiveD : 0 < turnD.toNat) (withinD : turnD.toNat < 64)
    (positiveB : 0 < turnB.toNat) (withinB : turnB.toNat < 64) :
    Bijective fun words => (rows.mix turnD turnB words).b :=
  -- This is the end of the chain of steps, none of which loses a word.
  (Row.rotateRight_bijective turnB positiveB withinB).comp
    ((Row.xor_bijective rows.b).comp (mix_c_bijective turnD turnB rows positiveD withinD))

end

variable (rows : Rows)

/-- Row `b` after the first half tells the words of that half. -/
theorem firstHalf_b_bijective : Bijective fun words => (rows.firstHalf words).b :=
  -- Both amounts lie strictly between zero and the width.
  mix_b_bijective 32 24 rows (by decide) (by decide) (by decide) (by decide)

/-- Row `c` after the second half tells the words of that half. -/
theorem secondHalf_c_bijective : Bijective fun words => (rows.secondHalf words).c :=
  -- Only the first of the two turns lies on the way to it.
  mix_c_bijective 16 63 rows (by decide) (by decide)

/-- Row `b` after the second half comes from row `b` before it and row `c` after it. -/
theorem secondHalf_b (words : Row) :
    (rows.secondHalf words).b = (rows.b ^^^ (rows.secondHalf words).c).rotateRight 63 := rfl

/-- Both halves of the mixing function, each fed its own row of message words. -/
def bothHalves (rows : Rows) (words : Row × Row) : Rows :=
  (rows.firstHalf words.1).secondHalf words.2

/-- Takes both halves of the mixing function back, the second one first. -/
def undoBothHalves (rows : Rows) (words : Row × Row) : Rows :=
  (rows.undoSecondHalf words.2).undoFirstHalf words.1

/-- Taking both halves back undoes them. -/
@[simp] theorem undoBothHalves_bothHalves (words : Row × Row) :
    (rows.bothHalves words).undoBothHalves words = rows := by
  -- Each half meets its own inverse.
  simp [bothHalves, undoBothHalves]

/-- Both halves bring back the rows that they were taken back from. -/
@[simp] theorem bothHalves_undoBothHalves (words : Row × Row) :
    (rows.undoBothHalves words).bothHalves words = rows := by
  -- Each half meets its own inverse, in the other order.
  simp [bothHalves, undoBothHalves]

/-- From known rows, both rows of message words can be read off the rows `b` and `c` that they lead to. -/
theorem bothHalves_bc_bijective :
    Bijective fun words => ((rows.bothHalves words).b, (rows.bothHalves words).c) := by
  -- The words of the second half are read off row `c`, once those of the first half are known.
  have turned := Row.rotateRight_bijective 63 (by decide) (by decide)
  constructor
  · rintro ⟨x, y⟩ ⟨x', y'⟩ same
    obtain ⟨sameB, sameC⟩ := Prod.mk.inj same
    simp only [bothHalves, secondHalf_b] at sameB sameC
    -- Row `b` after the second half gives row `b` after the first, and with it the first words.
    rw [sameC, Row.xor_comm, Row.xor_comm _ ((rows.firstHalf x').secondHalf y').c] at sameB
    have middle := (Row.xor_bijective _).injective (turned.injective sameB)
    obtain rfl := (firstHalf_b_bijective rows).injective middle
    obtain rfl := (secondHalf_c_bijective (rows.firstHalf x)).injective sameC
    rfl
  · rintro ⟨b, c⟩
    -- The same way back finds the words for any rows `b` and `c`.
    obtain ⟨x, middle⟩ := (firstHalf_b_bijective rows).surjective (b.rotateLeft 63 ^^^ c)
    obtain ⟨y, last⟩ := (secondHalf_c_bijective (rows.firstHalf x)).surjective c
    refine ⟨(x, y), Prod.ext ?_ last⟩
    simp only at middle last
    show (rows.bothHalves (x, y)).b = b
    rw [bothHalves, secondHalf_b, middle, last, Row.xor_xor_cancel,
      Row.rotateRight_rotateLeft _ (by decide) (by decide)]

/-- Of a row taken back, `b` and `c` do not depend on the message words. -/
theorem undoBothHalves_bc (words other : Row × Row) :
    (rows.undoBothHalves words).b = (rows.undoBothHalves other).b ∧
      (rows.undoBothHalves words).c = (rows.undoBothHalves other).c := ⟨rfl, rfl⟩

/-- To known rows, both rows of message words can be read off the rows `d` and `a` that they lead from. -/
theorem undoBothHalves_da_bijective :
    Bijective fun words => ((rows.undoBothHalves words).d, (rows.undoBothHalves words).a) := by
  -- On the way back each half takes its own words away from row `a` only.
  have first (middle : Rows) : Bijective fun words => (middle.undoFirstHalf words).a :=
    Row.sub_sub_bijective _ _
  have second : Bijective fun words => (rows.undoSecondHalf words).a := Row.sub_sub_bijective _ _
  have compared := Row.xor_bijective ((rows.undoSecondHalf rows.a).d.rotateLeft 32)
  constructor
  · rintro ⟨x, y⟩ ⟨x', y'⟩ same
    obtain ⟨sameD, sameA⟩ := Prod.mk.inj same
    -- Row `d` before the first half gives row `a` before the second, and with it the second words.
    obtain rfl := second.injective (compared.injective sameD)
    obtain rfl := (first (rows.undoSecondHalf y)).injective sameA
    rfl
  · rintro ⟨d, a⟩
    obtain ⟨middle, foundD⟩ := compared.surjective d
    obtain ⟨y, found⟩ := second.surjective middle
    obtain ⟨x, foundA⟩ := (first (rows.undoSecondHalf y)).surjective a
    subst found
    exact ⟨(x, y), Prod.ext foundD foundA⟩

/-- Lining up the diagonals turns row `b` by one lane. -/
theorem diagonalize_b : rows.diagonalize.b = rows.b.turnLeft 1 := rfl

/-- Lining up the diagonals turns row `c` by two lanes. -/
theorem diagonalize_c : rows.diagonalize.c = rows.c.turnLeft 2 := rfl

/-- A round that is fed two rows of message words for the columns and two for the diagonals. -/
def roundOn (rows : Rows) (words : (Row × Row) × (Row × Row)) : Rows :=
  ((rows.bothHalves words.1).diagonalize.bothHalves words.2).undiagonalize

/-- Rows `b` and `c` of the columns can be read off the diagonals that they end as, whatever the words of
the diagonals were. -/
theorem roundOn_injective : Injective rows.roundOn := by
  -- Two rounds that end alike are taken back to where the columns have been mixed.
  rintro ⟨columns, diagonals⟩ ⟨columns', diagonals'⟩ same
  have last := congrArg diagonalize same
  simp only [roundOn, diagonalize_undiagonalize] at last
  obtain ⟨lanesB, lanesC⟩ := undoBothHalves_bc
    ((rows.bothHalves columns).diagonalize.bothHalves diagonals) diagonals diagonals'
  rw [undoBothHalves_bothHalves, last, undoBothHalves_bothHalves] at lanesB lanesC
  rw [diagonalize_b, diagonalize_b] at lanesB
  rw [diagonalize_c, diagonalize_c] at lanesC
  have middleB := Row.turnLeft_injective 1 lanesB
  have middleC := Row.turnLeft_injective 2 lanesC
  obtain rfl := (bothHalves_bc_bijective rows).injective (Prod.ext middleB middleC)
  have ends := congrArg (fun rows : Rows => (rows.b, rows.c)) last
  obtain rfl := (bothHalves_bc_bijective _).injective ends
  rfl

/-- The words of the columns are chosen for rows `b` and `c`, and those of the diagonals then for `d` and `a`. -/
theorem roundOn_surjective : Surjective rows.roundOn := by
  intro target
  -- Any words will do to find the rows `b` and `c` that the diagonals must have.
  obtain ⟨columns, middle⟩ := (bothHalves_bc_bijective rows).surjective
    ((target.diagonalize.undoBothHalves (rows.a, rows.a)).undiagonalize.b,
      (target.diagonalize.undoBothHalves (rows.a, rows.a)).undiagonalize.c)
  obtain ⟨middleB, middleC⟩ := Prod.mk.inj middle
  obtain ⟨diagonals, found⟩ := (undoBothHalves_da_bijective target.diagonalize).surjective
    ((rows.bothHalves columns).diagonalize.d, (rows.bothHalves columns).diagonalize.a)
  obtain ⟨foundD, foundA⟩ := Prod.mk.inj found
  obtain ⟨sameB, sameC⟩ := undoBothHalves_bc target.diagonalize diagonals (rows.a, rows.a)
  have reached : target.diagonalize.undoBothHalves diagonals =
      (rows.bothHalves columns).diagonalize := by
    refine Rows.ext foundA ?_ ?_ foundD
    · rw [sameB, diagonalize_b, middleB, ← diagonalize_b, diagonalize_undiagonalize]
    · rw [sameC, diagonalize_c, middleC, ← diagonalize_c, diagonalize_undiagonalize]
  refine ⟨(columns, diagonals), ?_⟩
  rw [roundOn, ← reached, bothHalves_undoBothHalves, undiagonalize_diagonalize]

/-- Known rows lead to each rows with exactly one choice of the four rows of message words. -/
theorem roundOn_bijective : Bijective rows.roundOn :=
  ⟨roundOn_injective rows, roundOn_surjective rows⟩

end Rows

namespace Message

/-- The message words in the order in which a round takes them. -/
def ordered (order : Order) (message : Message) : Message :=
  Vector.ofFn fun place => message.get (order.get place)

/-- No word is left out of an order of the schedule, and none comes twice. -/
theorem order_get_bijective (round : Nat) : Bijective (Schedule.order round).get := by
  -- On a finite set it is enough that no two places name the same word.
  apply Finite.injective_iff_bijective.mp
  intro i j same
  have listed := Schedule.orders_perm ⟨round % 10, Nat.mod_lt _ (by decide)⟩
  have distinct : (Schedule.order round).toList.Nodup :=
    listed.nodup_iff.mpr (List.nodup_finRange 16)
  have insideI : i.val < (Schedule.order round).toList.length := by simp
  have insideJ : j.val < (Schedule.order round).toList.length := by simp
  have entries : (Schedule.order round).toList[i.val] = (Schedule.order round).toList[j.val] := by
    simpa [get_eq_getElem] using same
  exact Fin.ext (distinct.getElem_inj_iff.mp entries)

/-- A message is the function from places to words that it stands for. -/
theorem get_bijective : Bijective (Vector.get : Message → Fin 16 → Word) := by
  -- The function is read off place by place.
  refine bijective_iff_has_inverse.mpr ⟨Vector.ofFn, ?_, ?_⟩
  · intro message
    exact Vector.ofFn_getElem
  · intro words
    funext place
    simp [get_eq_getElem]

/-- The words can be put back from the order of any round. -/
theorem ordered_bijective (round : Nat) : Bijective (ordered (Schedule.order round)) := by
  -- As functions of the position, the message and the order are composed.
  have composed : Vector.get ∘ ordered (Schedule.order round) =
      (· ∘ (Schedule.order round).get) ∘ Vector.get := by
    funext message place
    simp [ordered, get_eq_getElem]
  apply (get_bijective.of_comp_iff' _).mp
  rw [composed]
  exact (order_get_bijective round).comp_right.comp get_bijective

/-- The four rows of words that a round deals an ordered message to. -/
def deal (words : Message) : (Row × Row) × (Row × Row) :=
  ((⟨words.get 0, words.get 2, words.get 4, words.get 6⟩,
      ⟨words.get 1, words.get 3, words.get 5, words.get 7⟩),
    (⟨words.get 8, words.get 10, words.get 12, words.get 14⟩,
      ⟨words.get 9, words.get 11, words.get 13, words.get 15⟩))

/-- Puts the four rows of words together again, in the order in which they were dealt. -/
def collect : (Row × Row) × (Row × Row) → Message
  | ((x, y), (z, w)) => #v[x.lane0, y.lane0, x.lane1, y.lane1, x.lane2, y.lane2, x.lane3, y.lane3,
      z.lane0, w.lane0, z.lane1, w.lane1, z.lane2, w.lane2, z.lane3, w.lane3]

/-- Dealing the words to four rows loses none of them. -/
theorem deal_bijective : Bijective deal := by
  -- Collecting them again is the inverse.
  refine bijective_iff_has_inverse.mpr ⟨collect, ?_, fun _ => rfl⟩
  intro words
  apply Vector.ext
  intro place inside
  -- There are sixteen places.
  rcases place with _ | _ | _ | _ | _ | _ | _ | _ | _ | _ | _ | _ | _ | _ | _ | _ | place
  all_goals first | rfl | omega

end Message

namespace Rows

/-- A round is fed the message in the order of its number. -/
theorem round_eq_roundOn (message : Message) (number : Nat) (rows : Rows) :
    round message number rows =
      rows.roundOn (Message.deal (message.ordered (Schedule.order number))) := by
  -- The four gathers take the places that the words are dealt from.
  simp [round, roundOn, bothHalves, Message.deal, Message.ordered, Row.gather, get_eq_getElem]

/-- One round passes its whole message on, so different blocks part ways in the first round. -/
theorem round_keeps_message :
    (∀ rows number, Bijective fun message => round message number rows) ∧
    Bijective Block.words ∧
    ∀ state counter final,
      Injective fun block : Block => rounds block.words 0 1 (start state counter final) := by
  -- The message is ordered, dealt and mixed in, and each of these is a bijection.
  have once (rows : Rows) (number : Nat) : Bijective fun message => round message number rows := by
    simp only [round_eq_roundOn]
    exact (roundOn_bijective rows).comp
      (Message.deal_bijective.comp (Message.ordered_bijective number))
  have words : Bijective Block.words :=
    bijective_iff_has_inverse.mpr ⟨Words.toBytes, @Words.toBytes_ofBytes 16, Words.ofBytes_toBytes⟩
  refine ⟨once, words, ?_⟩
  intro state counter final
  exact (once (start state counter final) 0).injective.comp words.injective

end Rows

end Blake2F
