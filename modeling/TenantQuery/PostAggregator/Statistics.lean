namespace TenantQuery.Statistics

def polynomial (coefficients : List Float) (x : Float) : Float :=
  coefficients.foldr (fun c rest => c + x * rest) 0

def rational (above below : List Float) (x : Float) : Float :=
  polynomial above x / polynomial below x

namespace ErrorFunction

def nearOne : Float := 8.45062911510467529297e-01

def smallOver : List Float :=
  [1.28379167095512558561e-01, -3.25042107247001499370e-01, -2.84817495755985104766e-02,
   -5.77027029648944159157e-03, -2.37630166566501626084e-05]

def smallUnder : List Float :=
  [1, 3.97917223959155352819e-01, 6.50222499887672944485e-02, 5.08130628187576562776e-03,
   1.32494738004321644526e-04, -3.96022827877536812320e-06]

def middleOver : List Float :=
  [-2.36211856075265944077e-03, 4.14856118683748331666e-01, -3.72207876035701323847e-01,
   3.18346619901161753674e-01, -1.10894694282396677476e-01, 3.54783043256182359371e-02,
   -2.16637559486879084300e-03]

def middleUnder : List Float :=
  [1, 1.06420880400844228286e-01, 5.40397917702171048937e-01, 7.18286544141962662868e-02,
   1.26171219808761642112e-01, 1.36370839120290507362e-02, 1.19844998467991074170e-02]

def largeOver : List Float :=
  [-9.86494403484714822705e-03, -6.93858572707181764372e-01, -1.05586262253232909814e+01,
   -6.23753324503260060396e+01, -1.62396669462573470355e+02, -1.84605092906711035994e+02,
   -8.12874355063065934246e+01, -9.81432934416914548592e+00]

def largeUnder : List Float :=
  [1, 1.96512716674392571292e+01, 1.37657754143519042600e+02, 4.34565877475229228821e+02,
   6.45387271733267880336e+02, 4.29008140027567833386e+02, 1.08635005541779435134e+02,
   6.57024977031928170135e+00, -6.04244152148580987438e-02]

def hugeOver : List Float :=
  [-9.86494292470009928597e-03, -7.99283237680523006574e-01, -1.77579549177547519889e+01,
   -1.60636384855821916062e+02, -6.37566443368389627722e+02, -1.02509513161107724954e+03,
   -4.83519191608651397019e+02]

def hugeUnder : List Float :=
  [1, 3.03380607434824582924e+01, 3.25792512996573918826e+02, 1.53672958608443695994e+03,
   3.19985821950859553908e+03, 2.55305040643316442583e+03, 4.74528541206955367215e+02,
   -2.24409524465858183362e+01]

end ErrorFunction

open ErrorFunction

def upperHalf (x : Float) : Float :=
  Float.ofBits (x.toBits &&& 0xffffffff00000000)

def errorTail (above below : List Float) (x : Float) : Float :=
  let z := upperHalf x
  let ratio := rational above below (1 / (x * x))
  Float.exp (-z * z - 0.5625) * Float.exp ((z - x) * (z + x) + ratio) / x

/-- The complementary error function of a number that is not negative. -/
def complementaryError (x : Float) : Float :=
  if x.isNaN then x
  else if x < 0.84375 then
    if x < 1.3877787807814457e-17 then 1 - x
    else
      let y := rational smallOver smallUnder (x * x)
      if x < 0.25 then 1 - (x + x * y) else 1 - (0.5 + (x * y + (x - 0.5)))
  else if x < 1.25 then 1 - nearOne - rational middleOver middleUnder (x - 1)
  else if x < 1 / 0.35 then errorTail largeOver largeUnder x
  else if x < 28 then errorTail hugeOver hugeUnder x
  else 0

/-- Zero where the samples are empty or have no spread. -/
def zScore (size1 success1 size2 success2 : Float) : Float :=
  if size1 ≤ 0 || size2 ≤ 0 then 0
  else
    let p1 := success1 / size1
    let p2 := success2 / size2
    let pooled := (success1 + success2) / (size1 + size2)
    let spread := Float.sqrt (pooled * (1 - pooled) * (1 / size1 + 1 / size2))
    if spread == 0 || spread.isNaN then 0 else (p1 - p2) / spread

def pValue (z : Float) : Float :=
  complementaryError (z.abs / 1.41421356237309504880168872420969807856967187537694)

end TenantQuery.Statistics
