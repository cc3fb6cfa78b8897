import OcppProxy.Models

namespace OcppProxy

structure ConnectionMetrics where
  chargerToCentralForwarded : Nat := 0
  chargerToCentralDropped : Nat := 0
  centralToChargerForwarded : Nat := 0
  centralToChargerDropped : Nat := 0
  deriving DecidableEq, Repr

structure ConnectionStateManager where
  upstreamState : ConnectionState := .disconnected
  downstreamState : ConnectionState := .disconnected
  mqttState : ConnectionState := .disconnected
  listenerBound : Bool := false
  metrics : ConnectionMetrics := {}
  deriving DecidableEq, Repr

inductive HealthStatus where
  | healthy
  | idle
  | degraded
  | unhealthy
  deriving DecidableEq, Repr

namespace ConnectionStateManager

def transition (m : ConnectionStateManager) (conn : ConnectionId) (newState : ConnectionState) :
    ConnectionStateManager :=
  match conn with
  | .upstream => { m with upstreamState := newState }
  | .downstream => { m with downstreamState := newState }
  | .mqtt => { m with mqttState := newState }

def setListenerBound (m : ConnectionStateManager) (bound : Bool) : ConnectionStateManager :=
  { m with listenerBound := bound }

def healthStatus (m : ConnectionStateManager) : HealthStatus :=
  if !m.listenerBound then .unhealthy
  else if m.downstreamState ≠ .connected then .idle
  else match m.upstreamState with
    | .connected => if m.mqttState = .connected then .healthy else .degraded
    | .connecting | .reconnecting => .degraded
    | .disconnected => .unhealthy

def recordForwarded (m : ConnectionStateManager) (direction : Direction) : ConnectionStateManager :=
  match direction with
  | .chargerToCentral => { m with metrics.chargerToCentralForwarded :=
      m.metrics.chargerToCentralForwarded + 1 }
  | .centralToCharger => { m with metrics.centralToChargerForwarded :=
      m.metrics.centralToChargerForwarded + 1 }

def recordDropped (m : ConnectionStateManager) (direction : Direction) (count : Nat) :
    ConnectionStateManager :=
  match direction with
  | .chargerToCentral => { m with metrics.chargerToCentralDropped :=
      m.metrics.chargerToCentralDropped + count }
  | .centralToCharger => { m with metrics.centralToChargerDropped :=
      m.metrics.centralToChargerDropped + count }

end ConnectionStateManager

end OcppProxy
