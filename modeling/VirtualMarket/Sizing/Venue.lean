/-
VirtualMarket.Sizing.Venue — what trade sizing needs to know of a market.
-/
import VirtualMarket.Market.Pool

namespace VirtualMarket

/-- A market that quotes trades without being changed by them. -/
structure Venue where
  /-- The terms of buying base. -/
  quotePurchase : Float → Outcome Quote
  /-- The terms of selling base. -/
  quoteSale : Float → Outcome Quote
  markPrice : Float
  reserves : Reserves

def Pool.venue (p : Pool) : Venue where
  quotePurchase := p.quotePurchase
  quoteSale := p.quoteSale
  markPrice := p.markPrice
  reserves := p.state.reserves

/-- A venue whose price moves in proportion to the size of a trade, and that
never refuses one. -/
def Venue.linear (markPrice slope : Float) (reserves : Reserves) : Venue where
  quotePurchase size := .ok ⟨size * markPrice, 0, markPrice + slope * size⟩
  quoteSale size := .ok ⟨size * markPrice, 0, markPrice - slope * size⟩
  markPrice := markPrice
  reserves := reserves

end VirtualMarket
