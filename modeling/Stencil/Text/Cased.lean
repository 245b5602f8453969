import Stencil.Text.Letter

/-!
# Letters without a Counterpart

Lower-case and upper-case letters that no mapping takes to the other case:
modifier letters, phonetic letters, and the alphabets of mathematics.

The tables give inclusive ranges of code points in ascending order.

## Main definitions

* `isLoneLower`: A lower-case letter without an upper case.
* `isLoneUpper`: An upper-case letter without a lower case.
-/

namespace Stencil

namespace Text

/-- Lower-case letters without an upper case. -/
def loneLowerRanges : CodeRanges := [
  (170, 170), (186, 186), (312, 312), (397, 397), (411, 411), (426, 427), (442, 442), (446, 446),
  (545, 545), (564, 569), (597, 597), (600, 600), (602, 602), (605, 607), (610, 610), (612, 612),
  (615, 615), (621, 622), (624, 624), (627, 628), (630, 636), (638, 639), (641, 641), (644, 646),
  (653, 657), (659, 659), (661, 668), (671, 696), (704, 705), (736, 740), (890, 890),
  (1020, 1020), (1376, 1376), (1416, 1416), (7424, 7544), (7546, 7548), (7550, 7565),
  (7567, 7615), (7836, 7837), (7839, 7839), (8305, 8305), (8319, 8319), (8336, 8348),
  (8458, 8458), (8462, 8463), (8467, 8467), (8495, 8495), (8500, 8500), (8505, 8505),
  (8508, 8509), (8518, 8521), (11377, 11377), (11380, 11380), (11383, 11389), (11492, 11492),
  (42652, 42653), (42800, 42801), (42864, 42872), (42894, 42894), (42901, 42901), (42927, 42927),
  (42963, 42963), (42965, 42965), (43000, 43002), (43824, 43858), (43860, 43866), (43868, 43880),
  (67456, 67456), (67459, 67461), (67463, 67504), (67506, 67514), (119834, 119859),
  (119886, 119892), (119894, 119911), (119938, 119963), (119990, 119993), (119995, 119995),
  (119997, 120003), (120005, 120015), (120042, 120067), (120094, 120119), (120146, 120171),
  (120198, 120223), (120250, 120275), (120302, 120327), (120354, 120379), (120406, 120431),
  (120458, 120485), (120514, 120538), (120540, 120545), (120572, 120596), (120598, 120603),
  (120630, 120654), (120656, 120661), (120688, 120712), (120714, 120719), (120746, 120770),
  (120772, 120777), (120779, 120779), (122624, 122633), (122635, 122654)]

/-- Upper-case letters without a lower case. -/
def loneUpperRanges : CodeRanges := [
  (978, 980), (8450, 8450), (8455, 8455), (8459, 8461), (8464, 8466), (8469, 8469), (8473, 8477),
  (8484, 8484), (8488, 8488), (8492, 8493), (8496, 8497), (8499, 8499), (8510, 8511),
  (8517, 8517), (119808, 119833), (119860, 119885), (119912, 119937), (119964, 119964),
  (119966, 119967), (119970, 119970), (119973, 119974), (119977, 119980), (119982, 119989),
  (120016, 120041), (120068, 120069), (120071, 120074), (120077, 120084), (120086, 120092),
  (120120, 120121), (120123, 120126), (120128, 120132), (120134, 120134), (120138, 120144),
  (120172, 120197), (120224, 120249), (120276, 120301), (120328, 120353), (120380, 120405),
  (120432, 120457), (120488, 120512), (120546, 120570), (120604, 120628), (120662, 120686),
  (120720, 120744), (120778, 120778), (127280, 127305), (127312, 127337), (127344, 127369)]

/-- The character is a lower-case letter without an upper case. -/
def isLoneLower (c : Char) : Bool :=
  128 ≤ c.toNat && loneLowerRanges.has c.toNat

/-- The character is an upper-case letter without a lower case. -/
def isLoneUpper (c : Char) : Bool :=
  128 ≤ c.toNat && loneUpperRanges.has c.toNat

end Text

end Stencil
