namespace PermissionFeed.Field

@[match_pattern] abbrev version : String := "version"

@[match_pattern] abbrev event : String := "event"

@[match_pattern] abbrev eventId : String := "event_id"

@[match_pattern] abbrev playerId : String := "player_id"

@[match_pattern] abbrev occurredAt : String := "occurred_at"

@[match_pattern] abbrev reason : String := "reason"

@[match_pattern] abbrev requiresRefresh : String := "requires_full_refresh"

@[match_pattern] abbrev directDeltas : String := "direct_permission_deltas"

@[match_pattern] abbrev groupDeltas : String := "group_membership_deltas"

@[match_pattern] abbrev effectiveDeltas : String := "effective_permission_deltas"

@[match_pattern] abbrev action : String := "action"

@[match_pattern] abbrev key : String := "key"

@[match_pattern] abbrev expiresAt : String := "expires_at"

end PermissionFeed.Field
