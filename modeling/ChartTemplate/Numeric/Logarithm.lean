import ChartTemplate.Numeric.Read
import ChartTemplate.Numeric.Rounding

/-!
# Logarithms and powers of a base

Integral powers of ten are read off as decimals, so that they are correctly rounded.
-/

namespace ChartTemplate

def eulerNumber : Float := 2.718281828459045

def logBase (base x : Float) : Float :=
  if base == 10 then x.log10
  else if base == 2 then x.log2
  else if base == eulerNumber then x.log
  else x.log / base.log

def powBase (base x : Float) : Float :=
  if base == 10 && x.isFinite && fract x == 0 then ofDecimal 1 (toInt64Clamped x)
  else if base == eulerNumber then x.exp
  else base.pow x

end ChartTemplate
